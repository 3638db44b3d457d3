import Awen.Orchestration.CommandInvariants
import Awen.Orchestration.OpenRequests

/-!
# Deciding: projects, lifecycle, titles and links

What the decider plans for the commands of a project and for those commands of a thread that write
its lifecycle, its metadata and its pull request links. Three commands are carried out as a sequence
of other commands; they take the runner of such sequences as an argument, which
`Awen.Orchestration.Decider` supplies.
-/

namespace Awen.Orchestration

variable (js : JsRuntime)

/-! ## Planned events -/

/-- An event of a thread, as `withEventBase` lays it out. -/
def threadEvent (commandId : CommandId) (threadId : ThreadId) (occurredAt : IsoDateTime)
    (payload : ThreadEventPayload) (metadata : OrchestrationEventMetadata := {}) :
    PlannedOrchestrationEvent where
  aggregateKind := .thread
  aggregateId := threadId
  occurredAt
  commandId
  metadata
  payload := .thread threadId payload

def projectPlannedEvent (commandId : CommandId) (projectId : ProjectId) (occurredAt : IsoDateTime)
    (payload : ProjectEventPayload) : PlannedOrchestrationEvent where
  aggregateKind := .project
  aggregateId := projectId
  occurredAt
  commandId
  payload := .project projectId payload

/-- What a decision is made from, beside the command and the read model. -/
structure DecisionContext where
  /-- The time that the clock shows. -/
  now : IsoDateTime
  /-- The durable activity of the request that a command answers or dismisses. -/
  userInputActivity : Option OrchestrationThreadActivity := none

/-- The runner of a sequence of commands, given to the commands that are one. -/
abbrev SequenceRunner := List OrchestrationCommandBody → Decision (List PlannedOrchestrationEvent)

/-! ## Commands of a project -/

/-- Whether `script.<id>.run` is a command that a shortcut can be bound to. -/
def isScriptRunCommand (id : String) : Bool :=
  let start (c : Char) := c.isLower || c.isDigit
  match id.toList with
  | [] => false
  | c :: cs => start c && cs.all (fun c ↦ start c || c == '-') && decide (id.length ≤ 24)

/-- A monogram has at most two characters. -/
def iconFits : ProjectIconOverride → Bool
  | .monogram text => decide (js.graphemes text ≤ 2)
  | .lucide _ | .emoji _ => true

/-- A root that an update gives is the root of no other live project. -/
def requireNewWorkspaceRootAbsent (readModel : OrchestrationReadModel) (type : String)
    (workspaceRoot : Option String) (projectId : ProjectId) : Decision Unit :=
  match workspaceRoot with
  | some workspaceRoot =>
    requireActiveProjectWorkspaceRootAbsent js readModel type workspaceRoot projectId
  | none => .ok ()

/-- The first new script whose id no shortcut could name. Ids that are stored already may stay. -/
def invalidScript (project : OrchestrationProject) (scripts : List ProjectScript) :
    Option ProjectScript :=
  scripts.find? fun script ↦
    script.id ∉ project.scripts.map (·.id) ∧ !isScriptRunCommand script.id

def decideProjectMetaUpdate (readModel : OrchestrationReadModel) (context : DecisionContext)
    (commandId : CommandId) (projectId : ProjectId) (update : ProjectMetaUpdate) :
    Decision (List PlannedOrchestrationEvent) := do
  let type := "project.meta.update"
  let project ← requireProject readModel type projectId
  ensure ((update.projectIcon.getD none).all (iconFits js))
    (.invariant type "Project monograms must contain at most two characters.")
  match invalidScript project (update.scripts.getD []) with
  | some script => .error (.invariant type
      (s!"Script ID '{script.id}' must be 1-24 lowercase letters, digits or hyphens, " ++
        "starting with a letter or digit."))
  | none => do
    requireNewWorkspaceRootAbsent js readModel type update.workspaceRoot projectId
    return [projectPlannedEvent commandId projectId context.now (.metaUpdated {
      title := update.title
      workspaceRoot := update.workspaceRoot
      defaultModelSelection := update.defaultModelSelection
      defaultThreadEnvMode := update.defaultThreadEnvMode
      autoPull := update.autoPull
      faviconPath := update.faviconPath
      projectIcon := update.projectIcon
      scripts := update.scripts
      updatedAt := context.now })]

/-- The threads of a project that are not deleted. -/
def activeThreads (readModel : OrchestrationReadModel) (projectId : ProjectId) :
    List OrchestrationThread :=
  (listThreadsByProjectId readModel projectId).filter (·.deletedAt.isNone)

def decideProjectDelete (sequence : SequenceRunner) (readModel : OrchestrationReadModel)
    (context : DecisionContext) (commandId : CommandId) (projectId : ProjectId) (force : Bool) :
    Decision (List PlannedOrchestrationEvent) := do
  let type := "project.delete"
  let _ ← requireProject readModel type projectId
  ensure (activeThreads readModel projectId = [] ∨ force = true) (.invariant type
    s!"Project '{projectId}' is not empty and cannot be deleted without force=true.")
  if activeThreads readModel projectId ≠ [] then
    sequence ((activeThreads readModel projectId).map (fun thread ↦ .thread thread.id .delete) ++
      [.project projectId (.delete false)])
  else
    return [projectPlannedEvent commandId projectId context.now (.deleted context.now)]

def decideProjectCommand (sequence : SequenceRunner) (readModel : OrchestrationReadModel)
    (context : DecisionContext) (commandId : CommandId) (projectId : ProjectId) :
    ProjectCommand → Decision (List PlannedOrchestrationEvent)
  | .create title workspaceRoot createdAt => do
    requireProjectAbsent readModel "project.create" projectId
    requireActiveProjectWorkspaceRootAbsent js readModel "project.create" workspaceRoot projectId
    return [projectPlannedEvent commandId projectId createdAt (.created {
      title
      workspaceRoot
      -- only a metadata update records an explicit project default
      defaultModelSelection := none
      faviconPath := none
      projectIcon := none
      scripts := []
      createdAt
      updatedAt := createdAt })]
  | .metaUpdate update => decideProjectMetaUpdate js readModel context commandId projectId update
  | .delete force => decideProjectDelete sequence readModel context commandId projectId force

/-! ## Lifecycle commands of a thread -/

/-- The resolution with which settling dismisses an async question. -/
def settleDismissal (commandId : CommandId) (requestId : String)
    (request : OrchestrationThreadActivity) (occurredAt : IsoDateTime) :
    OrchestrationThreadActivity where
  id := s!"settle:{commandId}:{requestId}"
  kind := "user-input.resolved"
  summary := "User input dismissed"
  tone := .info
  turnId := request.turnId
  createdAt := occurredAt
  payload := .obj [("requestId", .str requestId), ("responseMode", .str "message")]

/-- `thread.settle`, and `thread.auto-settle` with the time it settles at. -/
def decideSettle (readModel : OrchestrationReadModel) (context : DecisionContext)
    (commandId : CommandId) (threadId : ThreadId) (type : String) (auto : Option IsoDateTime) :
    Decision (List PlannedOrchestrationEvent) := do
  let thread ← requireThreadNotArchived readModel type threadId
  ensure (auto = none ∨ thread.settledOverride = none) (.invariant type
    s!"thread {threadId} changed before automatic settlement")
  ensure (thread.session.all fun session ↦ !session.status.alive) (.threadSettleBlocked threadId)
  let pendingRequests := openRequests js thread
  -- settling by hand dismisses async questions; callbacks and approvals need a response
  ensure (pendingRequests.values.all fun activity ↦ auto.isNone &&
    activity.kind == "user-input.requested" && activity.byMessage) (.threadSettleBlocked threadId)
  ensure (hasQueuedTurnStartForThread js thread context.now = false)
    (.threadSettleBlocked threadId)
  let event := threadEvent commandId threadId context.now
  let alreadySettledAt := thread.settledAt.filter fun _ ↦ thread.settledOverride = some .settled
  return event (.settled (alreadySettledAt.getD (auto.getD context.now))
      (if alreadySettledAt.isSome then thread.updatedAt else context.now)) ::
    (pendingRequests.entries.map fun request ↦
      event (.activityAppended (settleDismissal commandId request.1 request.2 context.now))) ++
    (if thread.pinnedAt.isSome then [event (.unpinned context.now)] else []) ++
    (if thread.snoozedUntil.isSome then [event (.unsnoozed .user context.now)] else [])

def decideUnsettle (readModel : OrchestrationReadModel) (context : DecisionContext)
    (commandId : CommandId) (threadId : ThreadId) : Decision (List PlannedOrchestrationEvent) := do
  let thread ← requireThreadNotArchived readModel "thread.unsettle" threadId
  return [threadEvent commandId threadId context.now (.unsettled .user
    (if thread.settledOverride = some .active then thread.updatedAt else context.now))]

def decideSnooze (readModel : OrchestrationReadModel) (context : DecisionContext)
    (commandId : CommandId) (threadId : ThreadId) (snoozedUntil : IsoDateTime) :
    Decision (List PlannedOrchestrationEvent) := do
  let type := "thread.snooze"
  let thread ← requireThreadNotArchived readModel type threadId
  ensure (dateLt js context.now snoozedUntil = true) (.invariant type
    s!"thread {threadId} snooze wake time {snoozedUntil} is not in the future")
  ensure ((openRequests js thread).entries = []) (.invariant type
    s!"thread {threadId} has a pending approval or user-input request and cannot be snoozed")
  ensure (hasQueuedTurnStartForThread js thread context.now = false) (.invariant type
    s!"thread {threadId} has a queued turn start and cannot be snoozed")
  let existingSnoozedAt :=
    thread.snoozedAt.filter fun _ ↦ thread.snoozedUntil = some snoozedUntil
  return [threadEvent commandId threadId context.now (.snoozed snoozedUntil
    (existingSnoozedAt.getD context.now)
    (if existingSnoozedAt.isSome then thread.updatedAt else context.now))]

def decideUnsnooze (readModel : OrchestrationReadModel) (context : DecisionContext)
    (commandId : CommandId) (threadId : ThreadId) : Decision (List PlannedOrchestrationEvent) := do
  let thread ← requireThreadNotArchived readModel "thread.unsnooze" threadId
  return [threadEvent commandId threadId context.now (.unsnoozed .user
    (if thread.snoozedUntil.isNone then thread.updatedAt else context.now))]

/-- Pinning promotes: it clears the settled and the snoozed state. -/
def decidePin (readModel : OrchestrationReadModel) (context : DecisionContext)
    (commandId : CommandId) (threadId : ThreadId) (orderKey : Option String) :
    Decision (List PlannedOrchestrationEvent) := do
  let thread ← requireThreadNotArchived readModel "thread.pin" threadId
  let event := threadEvent commandId threadId context.now
  return event (.pinned (thread.pinnedAt.getD context.now)
      (if thread.pinnedAt.isNone then orderKey else none)
      (if thread.pinnedAt.isSome then thread.updatedAt else context.now)) ::
    (if thread.settledOverride = some .settled then [event (.unsettled .user context.now)]
      else []) ++
    (if thread.snoozedUntil.isSome then [event (.unsnoozed .user context.now)] else [])

def decideUnpin (readModel : OrchestrationReadModel) (context : DecisionContext)
    (commandId : CommandId) (threadId : ThreadId) : Decision (List PlannedOrchestrationEvent) := do
  let thread ← requireThreadNotArchived readModel "thread.unpin" threadId
  return [threadEvent commandId threadId context.now (.unpinned
    (if thread.pinnedAt.isNone then thread.updatedAt else context.now))]

def decidePinReorder (readModel : OrchestrationReadModel) (context : DecisionContext)
    (commandId : CommandId) (threadId : ThreadId) (orderKey : String) :
    Decision (List PlannedOrchestrationEvent) := do
  let type := "thread.pin.reorder"
  let thread ← requireThreadNotArchived readModel type threadId
  ensure (thread.pinnedAt.isSome) (.invariant type
    s!"thread {threadId} is not pinned and cannot be reordered")
  return [threadEvent commandId threadId context.now (.pinReordered orderKey
    (if thread.pinOrderKey = some orderKey then thread.updatedAt else context.now))]

def decideActiveReorder (readModel : OrchestrationReadModel) (context : DecisionContext)
    (commandId : CommandId) (threadId : ThreadId) (orderKey : String) :
    Decision (List PlannedOrchestrationEvent) := do
  let type := "thread.active.reorder"
  let thread ← requireThreadNotArchived readModel type threadId
  ensure (thread.deletedAt.isNone ∧ thread.pinnedAt.isNone ∧
      thread.settledOverride ≠ some .settled)
    (.invariant type s!"thread {threadId} is not active and cannot be reordered")
  return [threadEvent commandId threadId context.now (.metaUpdated {
    activeOrderKey := some (some orderKey)
    -- arranging the list is not thread activity
    updatedAt := thread.updatedAt })]

/-! ## Metadata and titles -/

/-- Whether an update sets anything beside the linked pull request. -/
def ThreadMetaUpdate.hasMetadata (update : ThreadMetaUpdate) : Bool :=
  update.title.isSome || update.regenerateTitle || update.modelSelection.isSome ||
    update.branch.isSome || update.expectedBranch.isSome || update.worktreePath.isSome

/-- The identity of the repository of a thread's project. -/
def repositoryIdentityOf (readModel : OrchestrationReadModel) (thread : OrchestrationThread) :
    Option RepositoryIdentity :=
  (findProject readModel.projects thread.projectId).bind OrchestrationProject.repositoryIdentity

/-- The link that legacy clients see, as the thread stores it. -/
def currentPullRequest (readModel : OrchestrationReadModel) (thread : OrchestrationThread) :
    Option ThreadPullRequestLink := do
  let legacy ← legacyLinkedPullRequestOf js thread.pullRequests thread.projectId
    (repositoryIdentityOf readModel thread)
  thread.pullRequests.find? fun link ↦ link.url = legacy.url ∧ link.number = legacy.number

/-- The event of a metadata update. -/
def metaUpdatedPayload (context : DecisionContext) (commandId : CommandId)
    (thread : OrchestrationThread) (update : ThreadMetaUpdate) : ThreadMetaUpdatedPayload where
  title := update.title
  titleState := if update.regenerateTitle then some (some ⟨.generated, commandId, false⟩)
    else update.title.map fun _ ↦ some ⟨.manual, commandId, false⟩
  regenerateTitle := update.regenerateTitle
  previousTitle := if update.regenerateTitle then some thread.title else none
  titleRegeneration :=
    if update.title.isSome ∧ thread.titleRegeneration.isSome then some none
    else if update.regenerateTitle then some (some ⟨commandId, context.now⟩) else none
  modelSelection := update.modelSelection
  branch :=
    if update.branch.isSome ∧ update.expectedBranch.any (· ≠ thread.branch) then some thread.branch
    else update.branch
  worktreePath := update.worktreePath
  linkedPullRequest := update.linkedPullRequest
  updatedAt := context.now

def decideMetaUpdate (sequence : SequenceRunner) (readModel : OrchestrationReadModel)
    (context : DecisionContext) (commandId : CommandId) (threadId : ThreadId)
    (update : ThreadMetaUpdate) : Decision (List PlannedOrchestrationEvent) := do
  let thread ← requireThread readModel "thread.meta.update" threadId
  let metadata : List OrchestrationCommandBody :=
    if update.hasMetadata then
      [.thread threadId (.metaUpdate { update with linkedPullRequest := none })] else []
  match update.linkedPullRequest, currentPullRequest js readModel thread with
  | some (some linked), current =>
    let canonicalHost := (repositoryIdentityOf readModel thread).map fun identity ↦
      (segments identity.canonicalKey).headD ""
    let host := ((js.parseUrl linked.url).map Url.hostname).getD (canonicalHost.getD "unknown")
    sequence (metadata ++
      (current.filter (·.source = .manual)).toList.map (fun link ↦
        .thread threadId (.pullRequestUnlink link.toThreadPullRequestKey)) ++
      [.thread threadId (.pullRequestLink
        (legacyThreadPullRequestKey js linked.repository linked.number linked.url (some host))
        linked.url .manual)])
  | some none, some current =>
    sequence (metadata ++ [.thread threadId (.pullRequestUnlink current.toThreadPullRequestKey)])
  | _, _ =>
    return [threadEvent commandId threadId context.now
      (.metaUpdated (metaUpdatedPayload context commandId thread update))]

def decideTitleGenerateComplete (readModel : OrchestrationReadModel) (context : DecisionContext)
    (commandId : CommandId) (threadId : ThreadId) (expectedTitle : String)
    (expectedVersion : Option CommandId) (title : String) (needsRefinement : Bool) :
    Decision (List PlannedOrchestrationEvent) := do
  let thread ← requireThread readModel "thread.title.generate.complete" threadId
  let current := thread.deletedAt = none ∧ thread.titleState.all (·.source ≠ .manual) ∧
    thread.title = expectedTitle ∧ thread.titleState.map (·.version) = expectedVersion ∧
    thread.titleRegeneration = none
  return [threadEvent commandId threadId context.now (.metaUpdated {
    title := if current then some title else none
    titleState := if current then some (some ⟨.generated, commandId, needsRefinement⟩) else none
    updatedAt := thread.updatedAt })]

def decideTitleRefine (readModel : OrchestrationReadModel) (context : DecisionContext)
    (commandId : CommandId) (threadId : ThreadId) (expectedVersion : CommandId) :
    Decision (List PlannedOrchestrationEvent) := do
  let thread ← requireThread readModel "thread.title.refine" threadId
  let current := thread.deletedAt = none ∧ thread.latestTurn.any (·.state = .completed) ∧
    thread.session.any (·.status = .ready) ∧
    thread.titleState = some ⟨.generated, expectedVersion, true⟩ ∧ thread.titleRegeneration = none
  return [threadEvent commandId threadId context.now (.metaUpdated {
    titleState := if current then some (some ⟨.generated, commandId, false⟩) else none
    regenerateTitle := decide current
    previousTitle := if current then some thread.title else none
    titleRegeneration := if current then some (some ⟨commandId, context.now⟩) else none
    updatedAt := thread.updatedAt })]

def decideTitleRegenerationComplete (readModel : OrchestrationReadModel)
    (context : DecisionContext) (commandId : CommandId) (threadId : ThreadId)
    (requestId : CommandId) (title : Option String) :
    Decision (List PlannedOrchestrationEvent) := do
  let thread ← requireThread readModel "thread.title.regeneration.complete" threadId
  let requestIsCurrent := thread.titleRegeneration.map (·.requestId) = some requestId
  return [threadEvent commandId threadId context.now (.metaUpdated {
    title := if requestIsCurrent then title else none
    titleRegeneration := if requestIsCurrent then some none else none
    updatedAt := if requestIsCurrent then context.now else thread.updatedAt })]

/-! ## Pull request links -/

/-- The link of a thread with a key. -/
def findPullRequestLink (thread : OrchestrationThread) (key : ThreadPullRequestKey) :
    Option ThreadPullRequestLink :=
  thread.pullRequests.find? (linkHasKey js key)

/-- How messages write a key. -/
def ThreadPullRequestKey.text (key : ThreadPullRequestKey) : String :=
  s!"{key.host}/{key.repository}#{key.number}"

def decidePullRequestLink (readModel : OrchestrationReadModel) (context : DecisionContext)
    (commandId : CommandId) (threadId : ThreadId) (key : ThreadPullRequestKey) (url : String)
    (source : ThreadPullRequestLinkSource) : Decision (List PlannedOrchestrationEvent) := do
  let type := "thread.pull-request.link"
  let thread ← requireThread readModel type threadId
  let key := normalizeThreadPullRequestKey js { toThreadPullRequestKey := key, url := some url }
  let existing := findPullRequestLink js thread key
  -- an explicit link brings a dismissed member of a stack back
  let undismisses := existing.any (·.source = .stackDismissed) &&
    decide (source ∈ [.manual, .agent, .created])
  ensure (existing.isNone ∨ undismisses = true) (.invariant type
    s!"pull request {key.text} is already linked to thread {threadId}")
  let link := match existing with
    | some existing => { existing with url, source }
    | none => { toThreadPullRequestKey := key, url, source, linkedAt := context.now
                snapshot := none, stack := none }
  return [threadEvent commandId threadId context.now (.pullRequestLinked link context.now)]

/-- Whether any link of the thread says that a key is a member of a native stack. -/
def belongsToStack (thread : OrchestrationThread) (key : ThreadPullRequestKey)
    (existing : ThreadPullRequestLink) : Bool :=
  decide (existing.source = .stack) || existing.stack.isSome ||
    thread.pullRequests.any fun link ↦
      js.toLowerCase link.host == key.host && js.toLowerCase link.repository == key.repository &&
        link.stack.any fun stack ↦ stack.layers.any (·.number = key.number)

def decidePullRequestUnlink (readModel : OrchestrationReadModel) (context : DecisionContext)
    (commandId : CommandId) (threadId : ThreadId) (key : ThreadPullRequestKey) :
    Decision (List PlannedOrchestrationEvent) := do
  let type := "thread.pull-request.unlink"
  let thread ← requireThread readModel type threadId
  let key := normalizeThreadPullRequestKey js (keySourceOfKey key)
  let existing ← expect (findPullRequestLink js thread key) (.invariant type
    s!"pull request {key.text} is not linked to thread {threadId}")
  -- a sibling can rediscover a member of a stack, so it needs a tombstone
  let payload := if belongsToStack js thread key existing
    then .pullRequestLinked { existing with source := .stackDismissed } context.now
    else .pullRequestUnlinked key context.now
  return [threadEvent commandId threadId context.now payload]

def decidePullRequestLinkSync (readModel : OrchestrationReadModel) (context : DecisionContext)
    (commandId : CommandId) (threadId : ThreadId) (key : ThreadPullRequestKey)
    (snapshot : ThreadPullRequestSnapshot) (stack : Option ThreadPullRequestStack) :
    Decision (List PlannedOrchestrationEvent) := do
  let type := "thread.pull-request-link.sync"
  let thread ← requireThread readModel type threadId
  let key := normalizeThreadPullRequestKey js (keySourceOfKey key)
  let _ ← expect (findPullRequestLink js thread key) (.invariant type
    s!"pull request {key.text} is not linked to thread {threadId}")
  return [threadEvent commandId threadId context.now
    (.pullRequestSynced key snapshot stack context.now)]

def decidePullRequestSync (readModel : OrchestrationReadModel) (context : DecisionContext)
    (commandId : CommandId) (threadId : ThreadId) (sync : PullRequestSync) :
    Decision (List PlannedOrchestrationEvent) := do
  let type := "thread.pull-request.sync"
  let thread ← requireThreadNotArchived readModel type threadId
  ensure (thread.deletedAt = none) (.invariant type
    s!"thread {threadId} was deleted before pull request discovery")
  ensure (thread.projectId = sync.projectId ∧ thread.branch = sync.expected.branch ∧
      thread.worktreePath = sync.expected.worktreePath ∧
      thread.linkedPullRequest = sync.expected.linkedPullRequest ∧
      thread.branchPullRequest = sync.expected.branchPullRequest)
    (.invariant type s!"thread {threadId} changed before pull request discovery")
  let project ← requireProject readModel type sync.projectId
  ensure (project.deletedAt = none ∧ project.workspaceRoot = sync.expected.workspaceRoot)
    (.invariant type s!"project {sync.projectId} changed before pull request discovery")
  return [threadEvent commandId threadId context.now (.metaUpdated {
    branchPullRequest := some sync.branchPullRequest
    linkedPullRequest := sync.linkedPullRequest.map some
    updatedAt := thread.updatedAt })]

end Awen.Orchestration
