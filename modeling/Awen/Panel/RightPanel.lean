import Awen.Library.OrderedMap
import Awen.Shared.JsRuntime
import Mathlib.Algebra.Order.Ring.Rat

/-!
# The right panel of a thread

The store of `rightPanelStore.ts`: each thread has an ordered list of surfaces, the active one of
them, a flag that says whether the panel is open, and the device surfaces that the user has
dismissed. An action of the user counts into a revision, which an update on behalf of the app
(`openProactive`, an automatic `openDevice`, the reconciliations) does not advance.
-/

namespace Awen.Panel

/-! ## Surfaces -/

/-- The texts that the platform makes. -/
structure PanelText where
  encodeURIComponent : String → String
  toLowerCase : String → String
  numberText : ℚ → String

inductive RightPanelKind where
  | diff | files | file | preview | device | terminal | pullRequest | pullRequests | agents
  deriving DecidableEq

/-- The id of a surface: a template string for each kind, and `other` for the ids that earlier
versions have stored and that are none of these. The placeholder of the browser is `browser:new`. -/
inductive SurfaceId where
  | browser (name : String)
  | device
  | deviceOf (name : String)
  | terminal (name : String)
  | diff
  | files
  | file (path : String)
  | attachment (name : String)
  | pullRequest (reference : String)
  | pullRequests
  | agents
  | other (text : String)
  deriving DecidableEq

inductive DevicePlatform where
  | ios | android
  deriving DecidableEq

structure DeviceTabTarget where
  hostId : String
  deviceId : String
  platform : DevicePlatform
  name : String
  deriving DecidableEq

structure ChatFileAttachment where
  id : String
  name : String
  deriving DecidableEq

inductive SplitDirection where
  | horizontal | vertical
  deriving DecidableEq

/-- A terminal surface. Its id is that of `name`. -/
structure TerminalSurface where
  name : String
  resourceId : String
  terminalIds : List String
  activeTerminalId : String
  splitDirection : Option SplitDirection
  deriving DecidableEq

/-- What the id of a file surface is made of. -/
inductive FileName where
  | path (relativePath : String)
  | attachment (id : String)
  deriving DecidableEq

structure FileSurface where
  name : FileName
  relativePath : String
  revealLine : Option ℤ
  revealRequestId : ℕ
  /-- Present when the file lives in the thread's attachment store. -/
  attachment : Option ChatFileAttachment
  deriving DecidableEq

structure PullRequestTarget where
  environmentId : Option String
  projectId : String
  host : Option String
  repository : String
  number : ℚ
  url : Option String
  deriving DecidableEq

inductive RightPanelSurface where
  | preview (name : String) (resourceId : Option String)
  | device (name : Option String) (target : Option DeviceTabTarget) (title : Option String)
  | terminal (surface : TerminalSurface)
  | diff
  | files
  | file (surface : FileSurface)
  | pullRequest (reference : String) (target : PullRequestTarget)
  | pullRequests
  | agents
  deriving DecidableEq

namespace RightPanelSurface

def id : RightPanelSurface → SurfaceId
  | preview name _ => .browser name
  | device none _ _ => .device
  | device (some name) _ _ => .deviceOf name
  | terminal surface => .terminal surface.name
  | diff => .diff
  | files => .files
  | file surface =>
    match surface.name with
    | .path relativePath => .file relativePath
    | .attachment id => .attachment id
  | pullRequest reference _ => .pullRequest reference
  | pullRequests => .pullRequests
  | agents => .agents

def kind : RightPanelSurface → RightPanelKind
  | preview _ _ => .preview
  | device _ _ _ => .device
  | terminal _ => .terminal
  | diff => .diff
  | files => .files
  | file _ => .file
  | pullRequest _ _ => .pullRequest
  | pullRequests => .pullRequests
  | agents => .agents

/-- A device surface with a target. -/
def hasTarget : RightPanelSurface → Bool
  | device _ target _ => target.isSome
  | _ => false

end RightPanelSurface

/-- The kinds that have one surface each. -/
inductive SingletonKind where
  | diff | files | pullRequests | agents | device
  deriving DecidableEq

def singletonSurface : SingletonKind → RightPanelSurface
  | .diff => .diff
  | .files => .files
  | .pullRequests => .pullRequests
  | .agents => .agents
  | .device => .device none none none

/-- The kinds that `open` and `toggle` take. -/
inductive OpenKind where
  | preview
  | singleton (kind : SingletonKind)
  deriving DecidableEq

def OpenKind.kind : OpenKind → RightPanelKind
  | preview => .preview
  | singleton kind => (singletonSurface kind).kind

def browserSurface (tabId : Option String) : RightPanelSurface :=
  match tabId with
  | some tabId => if tabId = "" then .preview "new" none else .preview tabId (some tabId)
  | none => .preview "new" none

def fileSurface (relativePath : String) (revealLine : Option ℤ) (revealRequestId : ℕ) :
    RightPanelSurface :=
  .file
    { name := .path relativePath
      relativePath
      revealLine
      revealRequestId
      attachment := none }

def attachmentSurface (attachment : ChatFileAttachment) : RightPanelSurface :=
  .file
    { name := .attachment attachment.id
      relativePath := attachment.name
      revealLine := none
      revealRequestId := 0
      attachment := some attachment }

def terminalSurface (terminalId : String) : RightPanelSurface :=
  .terminal
    { name := terminalId
      resourceId := terminalId
      terminalIds := [terminalId]
      activeTerminalId := terminalId
      splitDirection := none }

section Texts

variable (text : PanelText)

/-- The id of the surface of a change request, behind `pull-request:`. The environment leads it
where there is one. -/
def pullRequestSurfaceId (target : PullRequestTarget) : String :=
  let scope := match target.environmentId with
    | some environmentId => text.encodeURIComponent environmentId ++ ":"
    | none => ""
  let host := match target.host with
    | some host => text.encodeURIComponent (text.toLowerCase host) ++ ":"
    | none => ""
  scope ++ text.encodeURIComponent target.projectId ++ ":" ++ host ++
    text.encodeURIComponent target.repository ++ ":" ++ text.numberText target.number

def pullRequestSurface (target : PullRequestTarget) : RightPanelSurface :=
  .pullRequest (pullRequestSurfaceId text target)
    { target with host := target.host.map text.toLowerCase }

/-- The id of the surface of a device, behind `device:`. -/
def deviceSurfaceName (target : DeviceTabTarget) : String :=
  text.encodeURIComponent target.hostId ++ ":" ++ text.encodeURIComponent target.deviceId

def deviceSurfaceId (target : DeviceTabTarget) : SurfaceId :=
  .deviceOf (deviceSurfaceName text target)

end Texts

/-- `Math.trunc` -/
def truncate (value : ℚ) : ℤ := value.num.tdiv value.den

/-- A line that is absent or not finite is no line. -/
def normalizeRevealLine (line : Option ℚ) : Option ℤ := line.map fun line ↦ max 1 (truncate line)

/-! ## Updates of a thread -/

structure ThreadRightPanelState where
  isOpen : Bool := false
  activeSurfaceId : Option SurfaceId := none
  surfaces : List RightPanelSurface := []
  dismissedDeviceSurfaceIds : List SurfaceId := []
  deriving DecidableEq

namespace ThreadRightPanelState

/-- A surface has the id. -/
def has (surfaces : List RightPanelSurface) (surfaceId : SurfaceId) : Bool :=
  surfaces.any (·.id = surfaceId)

/-- The record is built from three fields. -/
def upsertSurface (current : ThreadRightPanelState) (surface : RightPanelSurface) :
    ThreadRightPanelState where
  isOpen := true
  surfaces := if has current.surfaces surface.id then current.surfaces
    else current.surfaces ++ [surface]
  activeSurfaceId := some surface.id

def open' (current : ThreadRightPanelState) : OpenKind → ThreadRightPanelState
  | .preview =>
    match current.surfaces.find? (·.kind = .preview) with
    | some existing => current.upsertSurface existing
    | none => current.upsertSurface (browserSurface none)
  | .singleton kind => current.upsertSurface (singletonSurface kind)

def openDevice (text : PanelText) (current : ThreadRightPanelState) (target : DeviceTabTarget)
    (automatic : Bool) : ThreadRightPanelState :=
  let id := deviceSurfaceId text target
  if automatic && current.dismissedDeviceSurfaceIds.contains id then current
  else
    let surface := .device (some (deviceSurfaceName text target)) (some target) none
    let dismissed := current.dismissedDeviceSurfaceIds.filter (· ≠ id)
    match current.surfaces.find? (·.id = id) with
    | some existing =>
      { current with
        surfaces := current.surfaces.filter (·.id ≠ .device)
        dismissedDeviceSurfaceIds := dismissed : ThreadRightPanelState }.upsertSurface existing
    | none =>
      { current with
        surfaces := current.surfaces.map fun entry ↦ if entry.id = .device then surface else entry
        dismissedDeviceSurfaceIds := dismissed : ThreadRightPanelState }.upsertSurface surface

/-- `title.trim() || surface.target?.name || "Device"` -/
def deviceTitle (target : Option DeviceTabTarget) (title : String) : String :=
  if trim title ≠ "" then trim title
  else
    match target with
    | some target => if target.name ≠ "" then target.name else "Device"
    | none => "Device"

def renameDevice (current : ThreadRightPanelState) (surfaceId : SurfaceId) (title : String) :
    ThreadRightPanelState :=
  { current with surfaces := current.surfaces.map fun surface ↦
      match surface with
      | .device name target old =>
        if surface.id = surfaceId then .device name target (some (deviceTitle target title))
        else .device name target old
      | surface => surface }

def openBrowser (current : ThreadRightPanelState) (tabId : Option String) :
    ThreadRightPanelState :=
  let withoutPlaceholder :=
    if tabId.any (· ≠ "") then current.surfaces.filter (·.id ≠ .browser "new")
    else current.surfaces
  { current with surfaces := withoutPlaceholder : ThreadRightPanelState }.upsertSurface
    (browserSurface tabId)

def openPullRequest (text : PanelText) (current : ThreadRightPanelState)
    (target : PullRequestTarget) : ThreadRightPanelState :=
  let surface := pullRequestSurface text target
  let next := current.upsertSurface surface
  if target.url.any (· ≠ "") then
    { next with surfaces := next.surfaces.map fun entry ↦
        if entry.id = surface.id then surface else entry }
  else next

/-- The record is built from three fields. -/
def openFile (current : ThreadRightPanelState) (relativePath : String) (line : Option ℚ) :
    ThreadRightPanelState :=
  let withoutStandaloneExplorer := current.surfaces.filter (·.kind ≠ .files)
  let existing := withoutStandaloneExplorer.findSome? fun
    | .file surface => if surface.name = .path relativePath then some surface else none
    | _ => none
  let surface := fileSurface relativePath (normalizeRevealLine line)
    ((existing.map (·.revealRequestId)).getD 0 + 1)
  { isOpen := true
    activeSurfaceId := some surface.id
    surfaces := match existing with
      | some _ => withoutStandaloneExplorer.map fun entry ↦
          if entry.id = surface.id then surface else entry
      | none => withoutStandaloneExplorer ++ [surface] }

def openAttachment (current : ThreadRightPanelState) (attachment : ChatFileAttachment) :
    ThreadRightPanelState :=
  { current with surfaces := current.surfaces.filter (·.kind ≠ .files) :
      ThreadRightPanelState }.upsertSurface (attachmentSurface attachment)

def openTerminal (current : ThreadRightPanelState) (terminalId : String) : ThreadRightPanelState :=
  current.upsertSurface (terminalSurface terminalId)

/-- Change the terminal surface with an id. -/
def mapTerminal (surfaces : List RightPanelSurface) (surfaceId : SurfaceId)
    (change : TerminalSurface → TerminalSurface) : List RightPanelSurface :=
  surfaces.map fun
    | .terminal surface =>
      .terminal (if .terminal surface.name = surfaceId then change surface else surface)
    | surface => surface

def splitTerminal (current : ThreadRightPanelState) (surfaceId : SurfaceId) (terminalId : String)
    (direction : SplitDirection) : ThreadRightPanelState :=
  { current with
    isOpen := true
    activeSurfaceId := some surfaceId
    surfaces := mapTerminal current.surfaces surfaceId fun surface ↦
      { surface with
        terminalIds := if surface.terminalIds.contains terminalId then surface.terminalIds
          else surface.terminalIds ++ [terminalId]
        activeTerminalId := terminalId
        splitDirection := if direction = .vertical then some .vertical else none } }

def activateTerminal (current : ThreadRightPanelState) (surfaceId : SurfaceId)
    (terminalId : String) : ThreadRightPanelState :=
  { current with
    activeSurfaceId := some surfaceId
    surfaces := mapTerminal current.surfaces surfaceId fun surface ↦
      if surface.terminalIds.contains terminalId then
        { surface with activeTerminalId := terminalId }
      else surface }

/-- The surface that takes the place of the one that was at an index. -/
def fallbackAt (surfaces : List RightPanelSurface) (index : ℕ) : Option RightPanelSurface :=
  surfaces[min index (surfaces.length - 1)]?

def closeTerminal (current : ThreadRightPanelState) (surfaceId : SurfaceId) (terminalId : String) :
    ThreadRightPanelState :=
  let found := current.surfaces.findSome? fun
    | .terminal surface => if .terminal surface.name = surfaceId then some surface else none
    | _ => none
  match found with
  | none => current
  | some surface =>
    let terminalIds := surface.terminalIds.filter (· ≠ terminalId)
    if terminalIds = [] then
      let index := current.surfaces.findIdx (·.id = surfaceId)
      let surfaces := current.surfaces.filter (·.id ≠ surfaceId)
      { current with
        isOpen := surfaces.length > 0 && current.isOpen
        surfaces
        activeSurfaceId := if current.activeSurfaceId = some surfaceId
          then (fallbackAt surfaces index).map (·.id) else current.activeSurfaceId }
    else
      { current with
        surfaces := mapTerminal current.surfaces surfaceId fun entry ↦
          { entry with
            terminalIds
            activeTerminalId := if entry.activeTerminalId = terminalId
              then terminalIds.getLastD entry.activeTerminalId else entry.activeTerminalId } }

def activateSurface (current : ThreadRightPanelState) (surfaceId : SurfaceId) :
    ThreadRightPanelState :=
  if has current.surfaces surfaceId then
    { current with isOpen := true, activeSurfaceId := some surfaceId }
  else current

def closeSurface (current : ThreadRightPanelState) (surfaceId : SurfaceId) :
    ThreadRightPanelState :=
  match current.surfaces.findIdx? (·.id = surfaceId) with
  | none => current
  | some index =>
    let surfaces := current.surfaces.filter (·.id ≠ surfaceId)
    if current.activeSurfaceId ≠ some surfaceId then
      { current with isOpen := surfaces.length > 0 && current.isOpen, surfaces }
    else
      { current with
        isOpen := surfaces.length > 0 && current.isOpen
        surfaces
        activeSurfaceId := (fallbackAt surfaces index).map (·.id) }

def closeOtherSurfaces (current : ThreadRightPanelState) (surfaceId : SurfaceId) :
    ThreadRightPanelState :=
  match current.surfaces.find? (·.id = surfaceId) with
  | none => current
  | some surface =>
    if current.surfaces.length = 1 then current
    else
      { current with isOpen := true, surfaces := [surface], activeSurfaceId := some surface.id }

def closeSurfacesToRight (current : ThreadRightPanelState) (surfaceId : SurfaceId) :
    ThreadRightPanelState :=
  match current.surfaces.findIdx? (·.id = surfaceId) with
  | none => current
  | some index =>
    if index = current.surfaces.length - 1 then current
    else
      let surfaces := current.surfaces.take (index + 1)
      { current with
        surfaces
        activeSurfaceId := if surfaces.any (some ·.id = current.activeSurfaceId)
          then current.activeSurfaceId else some surfaceId }

def closeAllSurfaces (current : ThreadRightPanelState) : ThreadRightPanelState :=
  if current.surfaces.length = 0 then current
  else { current with isOpen := false, surfaces := [], activeSurfaceId := none }

/-- The browser surfaces that are not among the known ones. -/
def addedBrowserSurfaces (current : ThreadRightPanelState) (tabIds : List String) :
    List RightPanelSurface :=
  let existingBrowser := current.surfaces.filter fun surface ↦
    surface.kind = .preview && surface.id ≠ .browser "new" &&
      tabIds.any fun tabId ↦ surface.id = .browser tabId
  (tabIds.filter fun tabId ↦ !has existingBrowser (.browser tabId)).map fun tabId ↦
    browserSurface (some tabId)

def reconcileBrowserSurfaces (current : ThreadRightPanelState) (tabIds : List String) :
    ThreadRightPanelState :=
  let nonBrowser := current.surfaces.filter (·.kind ≠ .preview)
  let existingBrowser := current.surfaces.filter fun surface ↦
    surface.kind = .preview && surface.id ≠ .browser "new" &&
      tabIds.any fun tabId ↦ surface.id = .browser tabId
  let surfaces := nonBrowser ++ existingBrowser ++ current.addedBrowserSurfaces tabIds
  { current with
    surfaces
    activeSurfaceId := if surfaces.any (some ·.id = current.activeSurfaceId)
      then current.activeSurfaceId
      else
        match surfaces.find? (·.kind = .preview) with
        | some fallbackBrowser => some fallbackBrowser.id
        | none => surfaces.head?.map (·.id) }

def reconcileFileSurfaces (current : ThreadRightPanelState) (workspaceAvailable : Bool) :
    ThreadRightPanelState :=
  if workspaceAvailable then current
  else
    let surfaces := current.surfaces.filter fun
      | .files => false
      | .file surface => surface.attachment.isSome
      | _ => true
    if surfaces.length = current.surfaces.length then current
    else
      { current with
        isOpen := if surfaces.length > 0 then current.isOpen else false
        surfaces
        activeSurfaceId := if surfaces.any (some ·.id = current.activeSurfaceId)
          then current.activeSurfaceId else surfaces.getLast?.map (·.id) }

def show' (current : ThreadRightPanelState) : ThreadRightPanelState :=
  if current.isOpen then current else { current with isOpen := true }

def close (current : ThreadRightPanelState) : ThreadRightPanelState :=
  if current.isOpen then { current with isOpen := false } else current

def toggleVisibility (current : ThreadRightPanelState) : ThreadRightPanelState :=
  { current with isOpen := !current.isOpen }

/-- The kind of the active surface. -/
def activeKind (current : ThreadRightPanelState) : Option RightPanelKind :=
  (current.surfaces.find? (some ·.id = current.activeSurfaceId)).map (·.kind)

def toggle (current : ThreadRightPanelState) (kind : OpenKind) : ThreadRightPanelState :=
  if current.isOpen && current.activeKind = some kind.kind then { current with isOpen := false }
  else current.open' kind

end ThreadRightPanelState

/-! ## Actions on a thread -/

/-- The actions that update one thread. -/
inductive ThreadAction where
  | open' (kind : OpenKind)
  | openDevice (target : DeviceTabTarget) (automatic : Bool)
  | renameDevice (surfaceId : SurfaceId) (title : String)
  | openBrowser (tabId : Option String)
  | openPullRequest (target : PullRequestTarget)
  | openFile (relativePath : String) (line : Option ℚ)
  | openAttachment (attachment : ChatFileAttachment)
  | openTerminal (terminalId : String)
  | splitTerminal (surfaceId : SurfaceId) (terminalId : String) (direction : SplitDirection)
  | activateTerminal (surfaceId : SurfaceId) (terminalId : String)
  | closeTerminal (surfaceId : SurfaceId) (terminalId : String)
  | activateSurface (surfaceId : SurfaceId)
  | closeSurface (surfaceId : SurfaceId)
  | closeOtherSurfaces (surfaceId : SurfaceId)
  | closeSurfacesToRight (surfaceId : SurfaceId)
  | closeAllSurfaces
  | reconcileBrowserSurfaces (tabIds : List String)
  | reconcileFileSurfaces (workspaceAvailable : Bool)
  | show'
  | close
  | toggleVisibility
  | toggle (kind : OpenKind)
  deriving DecidableEq

/-- Every action is a user choice but these. -/
def ThreadAction.isAutomatic : ThreadAction → Bool
  | openDevice _ automatic => automatic
  | reconcileBrowserSurfaces _ => true
  | reconcileFileSurfaces _ => true
  | _ => false

/-- What an action makes of the record of its thread. -/
def ThreadRightPanelState.update (text : PanelText) (current : ThreadRightPanelState) :
    ThreadAction → ThreadRightPanelState
  | .open' kind => current.open' kind
  | .openDevice target automatic => current.openDevice text target automatic
  | .renameDevice surfaceId title => current.renameDevice surfaceId title
  | .openBrowser tabId => current.openBrowser tabId
  | .openPullRequest target => current.openPullRequest text target
  | .openFile relativePath line => current.openFile relativePath line
  | .openAttachment attachment => current.openAttachment attachment
  | .openTerminal terminalId => current.openTerminal terminalId
  | .splitTerminal surfaceId terminalId direction =>
    current.splitTerminal surfaceId terminalId direction
  | .activateTerminal surfaceId terminalId => current.activateTerminal surfaceId terminalId
  | .closeTerminal surfaceId terminalId => current.closeTerminal surfaceId terminalId
  | .activateSurface surfaceId => current.activateSurface surfaceId
  | .closeSurface surfaceId => current.closeSurface surfaceId
  | .closeOtherSurfaces surfaceId => current.closeOtherSurfaces surfaceId
  | .closeSurfacesToRight surfaceId => current.closeSurfacesToRight surfaceId
  | .closeAllSurfaces => current.closeAllSurfaces
  | .reconcileBrowserSurfaces tabIds => current.reconcileBrowserSurfaces tabIds
  | .reconcileFileSurfaces workspaceAvailable => current.reconcileFileSurfaces workspaceAvailable
  | .show' => current.show'
  | .close => current.close
  | .toggleVisibility => current.toggleVisibility
  | .toggle kind => current.toggle kind

/-- What a user action adds to an update: the device surfaces that it has removed are dismissed. -/
def ThreadRightPanelState.dismissRemoved (current next : ThreadRightPanelState) :
    ThreadRightPanelState :=
  let removed := current.surfaces.filter fun surface ↦
    surface.hasTarget && !has next.surfaces surface.id
  if removed.length = 0 then next
  else
    { next with dismissedDeviceSurfaceIds :=
        (next.dismissedDeviceSurfaceIds ++ removed.map (·.id)).eraseDups }

/-! ## The store -/

structure RightPanelStore where
  byThreadKey : OrderedMap String ThreadRightPanelState := .empty
  /-- Session-only count of user panel choices per thread. -/
  userActionRevisionByThreadKey : OrderedMap String ℕ := .empty
  deriving DecidableEq

/-- A record that says nothing is not kept. -/
def ThreadRightPanelState.isBlank (next : ThreadRightPanelState) : Bool :=
  !next.isOpen && next.activeSurfaceId.isNone && next.surfaces.length = 0 &&
    next.dismissedDeviceSurfaceIds.length = 0

def updateThread (byThreadKey : OrderedMap String ThreadRightPanelState) (threadKey : String)
    (updater : ThreadRightPanelState → ThreadRightPanelState) :
    OrderedMap String ThreadRightPanelState :=
  let next := updater ((byThreadKey.get threadKey).getD {})
  if next.isBlank then byThreadKey.delete threadKey else byThreadKey.set threadKey next

namespace RightPanelStore

/-- `selectThreadRightPanelState` -/
def thread (s : RightPanelStore) (threadKey : String) : ThreadRightPanelState :=
  (s.byThreadKey.get threadKey).getD {}

def getUserActionRevision (s : RightPanelStore) (threadKey : String) : ℕ :=
  (s.userActionRevisionByThreadKey.get threadKey).getD 0

def automaticUpdate (s : RightPanelStore) (threadKey : String)
    (updater : ThreadRightPanelState → ThreadRightPanelState) : RightPanelStore :=
  { s with byThreadKey := updateThread s.byThreadKey threadKey updater }

def userAction (s : RightPanelStore) (threadKey : String)
    (updater : ThreadRightPanelState → ThreadRightPanelState) : RightPanelStore where
  byThreadKey := updateThread s.byThreadKey threadKey fun current ↦
    current.dismissRemoved (updater current)
  userActionRevisionByThreadKey :=
    s.userActionRevisionByThreadKey.set threadKey (s.getUserActionRevision threadKey + 1)

def act (text : PanelText) (s : RightPanelStore) (threadKey : String) (action : ThreadAction) :
    RightPanelStore :=
  if action.isAutomatic then s.automaticUpdate threadKey fun current ↦ current.update text action
  else s.userAction threadKey fun current ↦ current.update text action

/-- The surfaces that the app opens on its own. -/
inductive ProactiveSurface where
  | diff
  | pullRequest (reference : String) (target : PullRequestTarget)
  deriving DecidableEq

def ProactiveSurface.surface : ProactiveSurface → RightPanelSurface
  | diff => .diff
  | pullRequest reference target => .pullRequest reference target

/-- A linked pull request takes priority over a completed-turn diff. -/
def openProactive (s : RightPanelStore) (threadKey : String) (surface : ProactiveSurface)
    (expectedUserActionRevision : ℕ) : RightPanelStore :=
  if s.getUserActionRevision threadKey ≠ expectedUserActionRevision then s
  else if surface = .diff ∧ (s.thread threadKey).isOpen ∧
      (s.thread threadKey).activeKind = some .pullRequest then s
  else s.automaticUpdate threadKey fun current ↦ current.upsertSurface surface.surface

def removeThread (s : RightPanelStore) (threadKey : String) : RightPanelStore where
  byThreadKey := s.byThreadKey.delete threadKey
  userActionRevisionByThreadKey := s.userActionRevisionByThreadKey.delete threadKey

end RightPanelStore

/-- The actions of the store. -/
inductive StoreAction where
  | act (threadKey : String) (action : ThreadAction)
  | openProactive (threadKey : String) (surface : RightPanelStore.ProactiveSurface)
    (expectedUserActionRevision : ℕ)
  | removeThread (threadKey : String)
  deriving DecidableEq

def RightPanelStore.perform (text : PanelText) (s : RightPanelStore) : StoreAction → RightPanelStore
  | .act threadKey action => s.act text threadKey action
  | .openProactive threadKey surface expectedUserActionRevision =>
    s.openProactive threadKey surface expectedUserActionRevision
  | .removeThread threadKey => s.removeThread threadKey

/-! ## Migration -/

/-- A surface as some version has stored it: fields of later versions are missing. -/
inductive StoredSurface where
  | plan (id : SurfaceId)
  | preview (name : String) (resourceId : Option String)
  | device (name : Option String) (target : Option DeviceTabTarget) (title : Option String)
  | terminal (id : SurfaceId) (resourceId : Option String) (terminalIds : Option (List String))
    (activeTerminalId : Option String) (splitDirection : Option SplitDirection)
  | diff
  | files
  | file (name : FileName) (relativePath : String) (revealLine revealRequestId : Option ℚ)
    (attachment : Option ChatFileAttachment)
  | pullRequest (id : SurfaceId) (environmentId projectId host repository : Option String)
    (number : Option ℚ) (url : Option String)
  | pullRequests
  | agents
  deriving DecidableEq

/-- `Number.isSafeInteger` -/
def isSafeInteger (value : ℚ) : Bool :=
  value.den = 1 && decide (-9007199254740991 ≤ value.num ∧ value.num ≤ 9007199254740991)

/-- A surface of a change request is kept if it names one, under the id of its reference. -/
def migratePullRequest (text : PanelText) (environmentId projectId host repository : Option String)
    (number : Option ℚ) (url : Option String) : Option RightPanelSurface :=
  match projectId, repository, number with
  | some projectId, some repository, some number =>
    if !isSafeInteger number || decide (number < 1) then none
    else some (pullRequestSurface text { environmentId, projectId, host, repository, number, url })
  | _, _, _ => none

/-- The terminals of a stored surface, each once. -/
def storedTerminalIds (resourceId : String) : Option (List String) → List String
  | some terminalIds => terminalIds.eraseDups
  | none => [resourceId]

/-- A terminal surface is kept if its id is that of its terminal. -/
def migrateTerminal (id : SurfaceId) (resourceId : Option String)
    (terminalIds : Option (List String)) (activeTerminalId : Option String)
    (splitDirection : Option SplitDirection) : Option RightPanelSurface :=
  match resourceId with
  | none => none
  | some resourceId =>
    if id ≠ .terminal resourceId then none
    else
      let terminalIds := storedTerminalIds resourceId terminalIds
      let first := terminalIds.headD resourceId
      let activeTerminalId := match activeTerminalId with
        | some active => if terminalIds.contains active then active else first
        | none => first
      some (.terminal
        { name := resourceId
          resourceId
          terminalIds := if terminalIds.length > 0 then terminalIds else [resourceId]
          activeTerminalId
          splitDirection })

def migrateSurface (text : PanelText) : StoredSurface → Option RightPanelSurface
  | .plan _ => none
  | .file name relativePath revealLine revealRequestId attachment =>
    some (.file
      { name
        relativePath
        revealLine := normalizeRevealLine revealLine
        revealRequestId := match revealRequestId with
          | some value => if isSafeInteger value && decide (0 ≤ value) then value.num.toNat else 0
          | none => 0
        attachment })
  | .pullRequest _ environmentId projectId host repository number url =>
    migratePullRequest text environmentId projectId host repository number url
  | .terminal id resourceId terminalIds activeTerminalId splitDirection =>
    migrateTerminal id resourceId terminalIds activeTerminalId splitDirection
  | .preview name resourceId => some (.preview name resourceId)
  | .device name target title => some (.device name target title)
  | .diff => some .diff
  | .files => some .files
  | .pullRequests => some .pullRequests
  | .agents => some .agents

/-- The record of a thread as some version has stored it. -/
structure StoredThreadState where
  isOpen : Option Bool
  activeSurfaceId : Option SurfaceId
  surfaces : Option (List StoredSurface)
  dismissedDeviceSurfaceIds : Option (List SurfaceId)
  deriving DecidableEq

/-- The stored active id, if it is still that of a surface. The surface of a change request used to
have an id of its own. -/
def StoredThreadState.persistedActiveSurfaceId (validThreadState : StoredThreadState)
    (surfaces : List RightPanelSurface) : Option SurfaceId :=
  if surfaces.any (some ·.id = validThreadState.activeSurfaceId) then
    validThreadState.activeSurfaceId
  else if validThreadState.activeSurfaceId = some (.other "pull-request") then
    (surfaces.find? (·.kind = .pullRequest)).map (·.id)
  else none

def migrateThreadState (text : PanelText) (validThreadState : StoredThreadState) :
    ThreadRightPanelState :=
  let surfaces := (validThreadState.surfaces.getD []).filterMap (migrateSurface text)
  let persistedActiveSurfaceId := validThreadState.persistedActiveSurfaceId surfaces
  -- a migration that dropped every surface must not reopen an empty panel
  let isOpen := surfaces.length > 0 &&
    validThreadState.isOpen.getD persistedActiveSurfaceId.isSome
  { isOpen
    surfaces
    activeSurfaceId := match persistedActiveSurfaceId with
      | some id => some id
      | none => if isOpen then surfaces.head?.map (·.id) else none
    dismissedDeviceSurfaceIds := validThreadState.dismissedDeviceSurfaceIds.getD [] }

/-- The pull-request list's shared panel is session state. -/
def isPullRequestsPanelKey (threadKey : String) : Bool :=
  ":pull-requests-panel".toList.isSuffixOf threadKey.toList

def migratePersistedRightPanelState (text : PanelText)
    (byThreadKey : OrderedMap String StoredThreadState) :
    OrderedMap String ThreadRightPanelState where
  entries := (byThreadKey.entries.filter fun entry ↦ !isPullRequestsPanelKey entry.1).map
    fun entry ↦ (entry.1, migrateThreadState text entry.2)
  nodup_keys := by
    rw [List.map_map]
    exact (byThreadKey.nodup_keys.sublist (List.filter_sublist.map _))

end Awen.Panel
