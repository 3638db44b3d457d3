import Awen.Orchestration.Events
import Awen.Shared.DateTime
import Awen.Shared.ThreadPullRequests

/-!
# The in-memory read model

`projectEvent` folds one event into the read model that commands are decided against. A thread
event looks its thread up by id, and then every entry with that id takes the patch, so the patch of
an event, `threadPatch`, has the thread that was found and the entry it is applied to as arguments.
-/

namespace Awen.Orchestration

/-- The last `n` items of a list: `items.slice(-n)`. -/
def lastItems {α : Type*} (n : ℕ) (items : List α) : List α := items.drop (items.length - n)

def maxThreadMessages : ℕ := 2000
def maxThreadCheckpoints : ℕ := 500
def maxThreadActivities : ℕ := 500
def maxThreadProposedPlans : ℕ := 200

/-- The kind of the one record of a worktree's setup. -/
def worktreeSetupActivityKind : String := "worktree-setup"

/-! ## Activities -/

/-- The request that an activity is about. -/
def OrchestrationThreadActivity.requestId? (activity : OrchestrationThreadActivity) :
    Option String :=
  (activity.payload.field "requestId").bind Json.string?

/-- Whether an activity says that its request is answered by a message. -/
def OrchestrationThreadActivity.byMessage (activity : OrchestrationThreadActivity) : Bool :=
  (activity.payload.field "responseMode").bind Json.string? == some "message"

/-- One step of the scan for pending async questions, which remembers where each one stands. -/
def notePending (pending : List (String × ℕ)) (entry : OrchestrationThreadActivity × ℕ) :
    List (String × ℕ) :=
  match entry.1.requestId? with
  | none => pending
  | some requestId =>
    let others := pending.filter fun p ↦ p.1 ≠ requestId
    if entry.1.kind = "user-input.requested" ∧ entry.1.byMessage then
      others ++ [(requestId, entry.2)]
    else if entry.1.kind = "user-input.resolved" then others
    else pending

/-- The positions of the async questions that no later resolution closes. -/
def pendingPositions (activities : List OrchestrationThreadActivity) : List ℕ :=
  (activities.zipIdx.foldl notePending []).map Prod.snd

/-- The activities a thread keeps: the latest ones, pending async questions of any age, and the
record of the worktree's setup. -/
def retainThreadActivities (activities : List OrchestrationThreadActivity) :
    List OrchestrationThreadActivity :=
  if activities.length ≤ maxThreadActivities then activities
  else
    let pending := pendingPositions activities
    (activities.zipIdx.filter fun entry ↦
      decide (activities.length - maxThreadActivities ≤ entry.2) || pending.contains entry.2 ||
        entry.1.kind == worktreeSetupActivityKind).map Prod.fst

variable (js : JsRuntime)

/-- The order of activities: those without a sequence first, then by sequence; ties by time and
by id. -/
def compareThreadActivities (left right : OrchestrationThreadActivity) : Ordering :=
  let byTime := (js.localeCompare left.createdAt right.createdAt).then
    (js.localeCompare left.id right.id)
  match left.sequence, right.sequence with
  | some l, some r => if l ≠ r then compare l r else byTime
  | some _, none => .gt
  | none, some _ => .lt
  | none, none => byTime

/-- `compareThreadActivities` as a comparison. -/
def activityLe (left right : OrchestrationThreadActivity) : Bool :=
  (compareThreadActivities js left right).isLE

/-- Append an activity in place of the one with its id, in order. -/
def appendActivity (activities : List OrchestrationThreadActivity)
    (activity : OrchestrationThreadActivity) : List OrchestrationThreadActivity :=
  retainThreadActivities (stableSort (activityLe js)
    (activities.filter (·.id ≠ activity.id) ++ [activity]))

/-! ## Turns and reverts -/

/-- A missing git ref is not an interruption. -/
def checkpointStatusToLatestTurnState :
    OrchestrationCheckpointStatus → OrchestrationLatestTurnState
  | .error => .error
  | .ready | .missing => .completed

/-- How a running turn ends when its session takes a status, if it ends. -/
def settledTurnStateForSessionStatus :
    OrchestrationSessionStatus → Option OrchestrationLatestTurnState
  | .idle | .ready => some .completed
  | .error => some .error
  | .interrupted | .stopped => some .interrupted
  | .starting | .running => none

/-- The order of messages in the fallback of a revert. -/
def messageLe (left right : OrchestrationMessage) : Bool :=
  let byTime := compareDateTimeStrings js left.createdAt right.createdAt
  if byTime = 0 then (js.localeCompare left.id right.id).isLE else decide (byTime < 0)

/-- Of the messages of a role, keep as many as there are turns: those of retained turns, and then
the oldest of the others that belong to no dropped turn. -/
def retainRoleFallback (messages : List OrchestrationMessage) (retainedTurnIds : List TurnId)
    (turnCount : ℕ) (role : OrchestrationMessageRole) (retained : List MessageId) :
    List MessageId :=
  let count := (messages.filter fun m ↦
    m.role = role ∧ !isImportedAgentSessionMessageId m.id ∧ m.id ∈ retained).length
  let fallback := messages.filter fun m ↦
    m.role = role ∧ m.id ∉ retained ∧ m.turnId.all (· ∈ retainedTurnIds)
  retained ++ ((stableSort (messageLe js) fallback).take (turnCount - count)).map (·.id)

def retainThreadMessagesAfterRevert (messages : List OrchestrationMessage)
    (retainedTurnIds : List TurnId) (turnCount : ℕ) : List OrchestrationMessage :=
  let retained := (messages.filter fun m ↦
    m.role = .system ∨ isImportedAgentSessionMessageId m.id
      ∨ m.turnId.any (· ∈ retainedTurnIds)).map (·.id)
  let retained := retainRoleFallback js messages retainedTurnIds turnCount .user retained
  let retained := retainRoleFallback js messages retainedTurnIds turnCount .assistant retained
  messages.filter (·.id ∈ retained)

/-- The order of proposed plans. -/
def planLe (left right : OrchestrationProposedPlan) : Bool :=
  ((js.localeCompare left.createdAt right.createdAt).then
    (js.localeCompare left.id right.id)).isLE

/-! ## Pull requests -/

def findProject (projects : List OrchestrationProject) (projectId : ProjectId) :
    Option OrchestrationProject :=
  projects.find? (·.id = projectId)

/-- Swap the links of a thread, and derive the legacy link from them. -/
def pullRequestsPatch (projects : List OrchestrationProject) (thread : OrchestrationThread)
    (pullRequests : List ThreadPullRequestLink) (entry : OrchestrationThread) :
    OrchestrationThread :=
  { entry with
    pullRequests
    linkedPullRequest := legacyLinkedPullRequestOf js pullRequests thread.projectId
      ((findProject projects thread.projectId).bind OrchestrationProject.repositoryIdentity) }

/-- Whether two stored links name the same pull request. -/
def linksEqual (left right : ThreadPullRequestLink) : Bool :=
  threadPullRequestKeysEqual js (keySourceOfLink left) (keySourceOfLink right)

/-- Whether a stored link has a key. -/
def linkHasKey (key : ThreadPullRequestKey) (link : ThreadPullRequestLink) : Bool :=
  threadPullRequestKeysEqual js (keySourceOfLink link) (keySourceOfKey key)

/-- Replace the link with the same key in its place, or append. -/
def upsertPullRequestLink (pullRequests : List ThreadPullRequestLink)
    (link : ThreadPullRequestLink) : List ThreadPullRequestLink :=
  match pullRequests.findIdx? fun entry ↦ linksEqual js entry link with
  | none => pullRequests ++ [link]
  | some i => pullRequests.set i link

def removePullRequestLink (pullRequests : List ThreadPullRequestLink)
    (key : ThreadPullRequestKey) : List ThreadPullRequestLink :=
  pullRequests.filter fun entry ↦ !linkHasKey js key entry

/-- The host of a legacy link: the project's repository is the best witness, then the URL. -/
def legacyPullRequestHost (project : Option OrchestrationProject)
    (linked : ThreadLinkedPullRequest) : String :=
  let canonicalHost := project.bind fun p ↦ p.repositoryIdentity.bind fun identity ↦
    nonEmpty? (segments identity.canonicalKey).head?
  match canonicalHost.or ((js.parseUrl linked.url).map Url.hostname) with
  | some host => js.toLowerCase host
  | none => "unknown"

/-- The links after a legacy single link is written: it stands for all the manual ones. -/
def legacyLinkToPullRequests (pullRequests : List ThreadPullRequestLink)
    (project : Option OrchestrationProject) (linked : Option ThreadLinkedPullRequest)
    (linkedAt : IsoDateTime) : List ThreadPullRequestLink :=
  let withoutManual := pullRequests.filter (·.source ≠ .manual)
  match linked with
  | none => withoutManual
  | some linked => upsertPullRequestLink js withoutManual
      { toThreadPullRequestKey := legacyThreadPullRequestKey js linked.repository linked.number
          linked.url (some (legacyPullRequestHost js project linked))
        url := linked.url
        source := .manual
        linkedAt
        snapshot := none
        stack := none }

/-! ## Events of a thread -/

/-- The thread of a `thread.created` event, with nothing of an earlier thread of that id. -/
def createdThread (threadId : ThreadId) (payload : ThreadCreatedPayload) : OrchestrationThread where
  id := threadId
  projectId := payload.projectId
  title := payload.title
  modelSelection := payload.modelSelection
  runtimeMode := payload.runtimeMode
  interactionMode := payload.interactionMode
  branch := payload.branch
  worktreePath := payload.worktreePath
  createdAt := payload.createdAt
  updatedAt := payload.updatedAt

/-- A message takes the place of the one with its id; deltas are appended to its text. -/
def upsertMessage (messages : List OrchestrationMessage) (payload : ThreadMessageSentPayload) :
    List OrchestrationMessage :=
  if messages.any (·.id = payload.messageId) then
    messages.map fun entry ↦
      if entry.id = payload.messageId then
        { entry with
          text := if payload.streaming then entry.text ++ payload.text
            else if payload.text ≠ "" then payload.text else entry.text
          streaming := payload.streaming
          updatedAt := payload.updatedAt
          turnId := payload.turnId
          attachments := payload.attachments.or entry.attachments }
      else entry
  else
    messages ++ [{
      id := payload.messageId
      role := payload.role
      text := payload.text
      attachments := payload.attachments
      turnId := payload.turnId
      streaming := payload.streaming
      createdAt := payload.createdAt
      updatedAt := payload.updatedAt }]

/-- The latest turn after a session is set. Leaving `running` ends a running turn. -/
def latestTurnAfterSessionSet (latestTurn : Option OrchestrationLatestTurn)
    (session : OrchestrationSession) : Option OrchestrationLatestTurn :=
  match session.status, session.activeTurnId with
  | .running, some turnId =>
    let same := latestTurn.filter (·.turnId = turnId)
    some {
      turnId
      state := .running
      requestedAt := (same.map (·.requestedAt)).getD session.updatedAt
      startedAt := (same.bind (·.startedAt)).or (some session.updatedAt)
      completedAt := none
      assistantMessageId := same.bind (·.assistantMessageId) }
  | status, _ =>
    match latestTurn, settledTurnStateForSessionStatus status with
    | some turn, some state =>
      if turn.state = .running then
        some { turn with state, completedAt := some session.updatedAt }
      else latestTurn
    | _, _ => latestTurn

/-- Whether the session is still running a turn. -/
def turnStillRunning (session : Option OrchestrationSession) (turnId : TurnId) : Bool :=
  session.any fun s ↦ s.status = .running ∧ s.activeTurnId = some turnId

/-- The latest turn after a checkpoint of a turn that is not running. -/
def latestTurnAfterDiff (latestTurn : Option OrchestrationLatestTurn)
    (checkpoint : OrchestrationCheckpointSummary) : OrchestrationLatestTurn :=
  let same := latestTurn.filter (·.turnId = checkpoint.turnId)
  { turnId := checkpoint.turnId
    state := if same.any (·.state = .interrupted) then .interrupted
      else checkpointStatusToLatestTurnState checkpoint.status
    requestedAt := (same.map (·.requestedAt)).getD checkpoint.completedAt
    startedAt := (same.bind (·.startedAt)).or (some checkpoint.completedAt)
    completedAt := some checkpoint.completedAt
    assistantMessageId := checkpoint.assistantMessageId }

/-- The latest turn of a thread that was reverted to a checkpoint. -/
def latestTurnOfCheckpoint (checkpoint : OrchestrationCheckpointSummary) :
    OrchestrationLatestTurn where
  turnId := checkpoint.turnId
  state := checkpointStatusToLatestTurnState checkpoint.status
  requestedAt := checkpoint.completedAt
  startedAt := some checkpoint.completedAt
  completedAt := some checkpoint.completedAt
  assistantMessageId := checkpoint.assistantMessageId

/-- Checkpoints in the order of their turn counts. -/
def sortCheckpoints (checkpoints : List OrchestrationCheckpointSummary) :
    List OrchestrationCheckpointSummary :=
  stableSort (fun left right ↦
    decide (left.checkpointTurnCount ≤ right.checkpointTurnCount)) checkpoints

/-- The checkpoints a revert keeps. -/
def checkpointsAfterRevert (checkpoints : List OrchestrationCheckpointSummary) (turnCount : ℕ) :
    List OrchestrationCheckpointSummary :=
  lastItems maxThreadCheckpoints
    (sortCheckpoints (checkpoints.filter (·.checkpointTurnCount ≤ turnCount)))

/-- The turns a revert keeps. -/
def retainedTurnIds (checkpoints : List OrchestrationCheckpointSummary) (turnCount : ℕ) :
    List TurnId :=
  (checkpointsAfterRevert checkpoints turnCount).map (·.turnId)

/-- **What an event does to a thread.** The patch is computed from the thread that was found by id
and applied to an entry; `created` is no patch and is left to `projectEvent`. -/
def threadPatch (projects : List OrchestrationProject) (occurredAt : IsoDateTime)
    (thread : OrchestrationThread) (payload : ThreadEventPayload) (entry : OrchestrationThread) :
    OrchestrationThread :=
  match payload with
  | .created _ => entry
  | .deleted deletedAt => { entry with deletedAt := some deletedAt, updatedAt := deletedAt }
  | .archived archivedAt updatedAt =>
    { entry with archivedAt := some archivedAt, titleRegeneration := none, updatedAt }
  | .unarchived updatedAt => { entry with archivedAt := none, updatedAt }
  | .settled settledAt updatedAt =>
    { entry with
      settledOverride := some .settled
      settledAt := some settledAt
      unsettledAt := none
      activeOrderKey := none
      updatedAt }
  | .unsettled reason updatedAt =>
    { entry with
      settledOverride := if reason = .user then some .active else none
      settledAt := none
      -- a thread that was pinned active keeps its place in the active list
      unsettledAt := if thread.settledOverride = some .active then thread.unsettledAt
        else some updatedAt
      updatedAt }
  | .snoozed snoozedUntil snoozedAt updatedAt =>
    { entry with snoozedUntil := some snoozedUntil, snoozedAt := some snoozedAt, updatedAt }
  | .unsnoozed _ updatedAt => { entry with snoozedUntil := none, snoozedAt := none, updatedAt }
  | .pinned pinnedAt pinOrderKey updatedAt =>
    { entry with
      pinnedAt := some pinnedAt
      pinOrderKey := pinOrderKey.or entry.pinOrderKey
      updatedAt }
  | .unpinned updatedAt => { entry with pinnedAt := none, pinOrderKey := none, updatedAt }
  | .pinReordered orderKey updatedAt => { entry with pinOrderKey := some orderKey, updatedAt }
  | .metaUpdated payload =>
    let entry := { entry with
      title := payload.title.getD entry.title
      titleState := payload.titleState.getD entry.titleState
      titleRegeneration := payload.titleRegeneration.getD entry.titleRegeneration
      modelSelection := payload.modelSelection.getD entry.modelSelection
      branch := payload.branch.getD entry.branch
      worktreePath := payload.worktreePath.getD entry.worktreePath
      activeOrderKey := payload.activeOrderKey.getD entry.activeOrderKey
      branchPullRequest := payload.branchPullRequest.getD entry.branchPullRequest
      updatedAt := payload.updatedAt }
    match payload.linkedPullRequest with
    | none => entry
    | some linked =>
      let project := findProject projects thread.projectId
      pullRequestsPatch js projects thread
        (legacyLinkToPullRequests js thread.pullRequests project linked payload.updatedAt) entry
  | .pullRequestLinked link updatedAt =>
    { pullRequestsPatch js projects thread (upsertPullRequestLink js thread.pullRequests link) entry
      with updatedAt }
  | .pullRequestUnlinked key updatedAt =>
    { pullRequestsPatch js projects thread (removePullRequestLink js thread.pullRequests key) entry
      with updatedAt }
  | .pullRequestSynced key snapshot stack updatedAt =>
    -- a sync for a link the user removed in the meantime is stale
    if thread.pullRequests.any (linkHasKey js key) then
      { pullRequestsPatch js projects thread (thread.pullRequests.map fun link ↦
          if linkHasKey js key link then { link with snapshot := some snapshot, stack } else link)
          entry
        with updatedAt }
    else entry
  | .runtimeModeSet runtimeMode updatedAt => { entry with runtimeMode, updatedAt }
  | .interactionModeSet interactionMode updatedAt => { entry with interactionMode, updatedAt }
  | .messageSent payload =>
    { entry with
      messages := lastItems maxThreadMessages (upsertMessage thread.messages payload)
      updatedAt := occurredAt }
  | .sessionSet session =>
    { entry with
      session := some session
      latestTurn := latestTurnAfterSessionSet thread.latestTurn session
      updatedAt := occurredAt }
  | .proposedPlanUpserted proposedPlan =>
    { entry with
      proposedPlans := lastItems maxThreadProposedPlans (stableSort (planLe js)
        (thread.proposedPlans.filter (·.id ≠ proposedPlan.id) ++ [proposedPlan]))
      updatedAt := occurredAt }
  | .turnDiffCompleted checkpoint =>
    -- a placeholder does not overwrite a checkpoint that was captured
    if (thread.checkpoints.find? (·.turnId = checkpoint.turnId)).any (·.status ≠ .missing)
        ∧ checkpoint.status = .missing then entry
    else
      { entry with
        checkpoints := lastItems maxThreadCheckpoints (sortCheckpoints
          (thread.checkpoints.filter (·.turnId ≠ checkpoint.turnId) ++ [checkpoint]))
        latestTurn := if turnStillRunning thread.session checkpoint.turnId then thread.latestTurn
          else some (latestTurnAfterDiff thread.latestTurn checkpoint)
        updatedAt := occurredAt }
  | .reverted turnCount =>
    let checkpoints := checkpointsAfterRevert thread.checkpoints turnCount
    let turnIds := retainedTurnIds thread.checkpoints turnCount
    { entry with
      checkpoints
      messages := lastItems maxThreadMessages
        (retainThreadMessagesAfterRevert js thread.messages turnIds turnCount)
      proposedPlans := lastItems maxThreadProposedPlans
        (thread.proposedPlans.filter fun plan ↦ plan.turnId.all (· ∈ turnIds))
      activities := thread.activities.filter fun activity ↦ activity.turnId.all (· ∈ turnIds)
      latestTurn := checkpoints.getLast?.map latestTurnOfCheckpoint
      updatedAt := occurredAt }
  | .activityAppended activity =>
    { entry with
      activities := appendActivity js thread.activities activity
      updatedAt := occurredAt }
  | .turnStartRequested _ | .turnInterruptRequested .. | .approvalResponseRequested ..
  | .userInputResponseRequested .. | .checkpointRevertRequested .. | .sessionStopRequested _ =>
    entry

/-! ## The read model -/

def findThread (threads : List OrchestrationThread) (threadId : ThreadId) :
    Option OrchestrationThread :=
  threads.find? (·.id = threadId)

/-- Apply a patch to every entry with an id. -/
def updateThread (threads : List OrchestrationThread) (threadId : ThreadId)
    (patch : OrchestrationThread → OrchestrationThread) : List OrchestrationThread :=
  threads.map fun thread ↦ if thread.id = threadId then patch thread else thread

/-- Put a thread in the place of those with its id, or append it. -/
def putThread (threads : List OrchestrationThread) (thread : OrchestrationThread) :
    List OrchestrationThread :=
  if threads.any (·.id = thread.id) then updateThread threads thread.id fun _ ↦ thread
  else threads ++ [thread]

/-- The threads after a thread event. -/
def projectThreadEvent (projects : List OrchestrationProject) (occurredAt : IsoDateTime)
    (threadId : ThreadId) (payload : ThreadEventPayload) (threads : List OrchestrationThread) :
    List OrchestrationThread :=
  match payload with
  | .created payload => putThread threads (createdThread threadId payload)
  | payload =>
    match findThread threads threadId with
    | none => threads
    | some thread =>
      updateThread threads threadId (threadPatch js projects occurredAt thread payload)

/-- The project of a `project.created` event. -/
def createdProject (projectId : ProjectId) (payload : ProjectCreatedPayload) :
    OrchestrationProject where
  id := projectId
  title := payload.title
  workspaceRoot := payload.workspaceRoot
  defaultModelSelection := payload.defaultModelSelection
  faviconPath := payload.faviconPath
  projectIcon := payload.projectIcon
  scripts := payload.scripts
  createdAt := payload.createdAt
  updatedAt := payload.updatedAt

/-- The projects after a project event. -/
def projectProjectEvent (projectId : ProjectId) (payload : ProjectEventPayload)
    (projects : List OrchestrationProject) : List OrchestrationProject :=
  match payload with
  | .created payload =>
    let project := createdProject projectId payload
    if projects.any (·.id = projectId) then
      projects.map fun entry ↦ if entry.id = projectId then project else entry
    else projects ++ [project]
  | .metaUpdated payload => projects.map fun project ↦
    if project.id = projectId then
      { project with
        title := payload.title.getD project.title
        workspaceRoot := payload.workspaceRoot.getD project.workspaceRoot
        defaultModelSelection :=
          payload.defaultModelSelection.getD project.defaultModelSelection
        defaultThreadEnvMode := payload.defaultThreadEnvMode.getD project.defaultThreadEnvMode
        autoPull := payload.autoPull.getD project.autoPull
        faviconPath := payload.faviconPath.getD project.faviconPath
        projectIcon := payload.projectIcon.getD project.projectIcon
        scripts := payload.scripts.getD project.scripts
        updatedAt := payload.updatedAt }
    else project
  | .deleted deletedAt => projects.map fun project ↦
    if project.id = projectId then
      { project with deletedAt := some deletedAt, updatedAt := deletedAt }
    else project

/-- The read model before any event. -/
def createEmptyReadModel (nowIso : IsoDateTime) : OrchestrationReadModel where
  snapshotSequence := 0
  projects := []
  threads := []
  updatedAt := nowIso

/-- **One event folded into the read model.** -/
def projectEvent (model : OrchestrationReadModel) (event : OrchestrationEvent) :
    OrchestrationReadModel :=
  { snapshotSequence := event.sequence
    updatedAt := event.occurredAt
    projects := match event.payload with
      | .project projectId payload => projectProjectEvent projectId payload model.projects
      | .thread .. => model.projects
    threads := match event.payload with
      | .project .. => model.threads
      | .thread threadId payload =>
        projectThreadEvent js model.projects event.occurredAt threadId payload model.threads }

end Awen.Orchestration
