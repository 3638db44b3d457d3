import Awen.Library.Table
import Awen.Orchestration.Projector

/-!
# The thread tables of the database

The server keeps a row for every thread and a row for every pull request link. One projector writes
both, `applyThreadsProjection`. A row of a thread also has a summary that lists show, which is read
from the tables of messages, plans, activities, approvals and turns whenever it may have changed;
`ThreadReads` is what these tables answer.

A link is stored under its normalised key, together with its thread.
-/

namespace Awen.Orchestration

/-! ## Rows -/

/-- **The row of a thread.** -/
structure ProjectionThread where
  threadId : ThreadId
  projectId : ProjectId
  title : String
  titleState : Option ThreadTitleState := none
  modelSelection : ModelSelection
  runtimeMode : RuntimeMode
  interactionMode : ProviderInteractionMode
  branch : Option String
  worktreePath : Option String
  linkedPullRequest : Option ThreadLinkedPullRequest := none
  branchPullRequest : Option ThreadLinkedPullRequest := none
  latestTurnId : Option TurnId := none
  createdAt : IsoDateTime
  updatedAt : IsoDateTime
  archivedAt : Option IsoDateTime := none
  settledOverride : Option SettledOverride := none
  settledAt : Option IsoDateTime := none
  unsettledAt : Option IsoDateTime := none
  snoozedUntil : Option IsoDateTime := none
  snoozedAt : Option IsoDateTime := none
  pinnedAt : Option IsoDateTime := none
  pinOrderKey : Option String := none
  activeOrderKey : Option String := none
  titleRegenerationRequestId : Option CommandId := none
  titleRegenerationStartedAt : Option IsoDateTime := none
  latestUserMessageAt : Option IsoDateTime := none
  pendingApprovalCount : ℕ := 0
  pendingUserInputCount : ℕ := 0
  hasActionableProposedPlan : Bool := false
  deletedAt : Option IsoDateTime := none

/-- **The row of a pull request link.** -/
structure ProjectionThreadPullRequest extends ThreadPullRequestLink where
  threadId : ThreadId
  deriving DecidableEq

/-- The primary key of a link. -/
def pullRequestRowKey (row : ProjectionThreadPullRequest) : ThreadId × ThreadPullRequestKey :=
  (row.threadId, row.toThreadPullRequestKey)

/-- **The tables that the projector of threads writes.** -/
structure ThreadTables where
  threads : Table ProjectionThread.threadId := .empty
  pullRequests : Table pullRequestRowKey := .empty

/-- What the other tables hold about a thread when its row is written. -/
structure ThreadReads where
  latestUserMessageAt : Option IsoDateTime := none
  pendingApprovalCount : ℕ := 0
  pendingUserInputCount : ℕ := 0
  /-- Whether a plan waits to be implemented, given the latest turn. -/
  hasActionableProposedPlan : Option TurnId → Bool := fun _ ↦ false
  /-- The turns of the thread with the counts of their checkpoints. -/
  turns : List (Option TurnId × Option ℕ) := []

/-! ## The repository of links -/

/-- The order in which links are listed. -/
def pullRequestRowOrder :
    ProjectionThreadPullRequest → ProjectionThreadPullRequest → Ordering :=
  compareLex (compareOn fun row ↦ row.linkedAt.toList) (compareOn fun row ↦ row.number)

namespace ThreadTables

variable (js : JsRuntime)

def upsertThread (tables : ThreadTables) (row : ProjectionThread) : ThreadTables :=
  { tables with threads := tables.threads.upsert row }

/-- The row that a link of a thread is stored as. -/
def pullRequestRow (threadId : ThreadId) (link : ThreadPullRequestLink) :
    ProjectionThreadPullRequest :=
  { link with toThreadPullRequestKey := linkKey js link, threadId }

def upsertPullRequest (tables : ThreadTables) (threadId : ThreadId)
    (link : ThreadPullRequestLink) : ThreadTables :=
  { tables with pullRequests := tables.pullRequests.upsert (pullRequestRow js threadId link) }

def listPullRequests (tables : ThreadTables) (threadId : ThreadId) :
    List ProjectionThreadPullRequest :=
  stableSort (fun left right ↦ (pullRequestRowOrder left right).isLE)
    (tables.pullRequests.rows.filter (·.threadId = threadId))

/-- The first listed link that has a key. -/
def findPullRequest (tables : ThreadTables) (threadId : ThreadId) (key : ThreadPullRequestKey) :
    Option ProjectionThreadPullRequest :=
  (tables.listPullRequests threadId).find? fun row ↦ linkHasKey js key row.toThreadPullRequestLink

/-- A key is normalised before rows are deleted by it. -/
def deletePullRequest (tables : ThreadTables) (threadId : ThreadId) (key : ThreadPullRequestKey) :
    ThreadTables :=
  { tables with pullRequests := tables.pullRequests.deleteWhere fun row ↦
      pullRequestRowKey row = (threadId, normalizeThreadPullRequestKey js (keySourceOfKey key)) }

def deletePullRequests (tables : ThreadTables) (threadId : ThreadId) : ThreadTables :=
  { tables with pullRequests := tables.pullRequests.deleteWhere (·.threadId = threadId) }

def deletePullRequestsBySource (tables : ThreadTables) (threadId : ThreadId)
    (source : ThreadPullRequestLinkSource) : ThreadTables :=
  { tables with pullRequests := tables.pullRequests.deleteWhere fun row ↦
      row.threadId = threadId ∧ row.source = source }

end ThreadTables

/-! ## The projector -/

/-- The row of a `thread.created` event. -/
def createdThreadRow (threadId : ThreadId) (payload : ThreadCreatedPayload) :
    ProjectionThread where
  threadId
  projectId := payload.projectId
  title := payload.title
  modelSelection := payload.modelSelection
  runtimeMode := payload.runtimeMode
  interactionMode := payload.interactionMode
  branch := payload.branch
  worktreePath := payload.worktreePath
  createdAt := payload.createdAt
  updatedAt := payload.updatedAt

/-- Activities of other kinds cannot change the summary of their thread. -/
def shouldRefreshThreadShellSummary : ThreadEventPayload → Bool
  | .activityAppended activity => activity.kind ∈
      ["approval.requested", "approval.resolved", "approval.respond.already-resolved",
        "provider.approval.respond.failed", "user-input.requested", "user-input.resolved",
        "provider.user-input.respond.failed"]
  | _ => true

/-- Read the summary of a row from the other tables. -/
def refreshThreadShellSummary (reads : ThreadReads) (row : ProjectionThread) : ProjectionThread :=
  { row with
    latestUserMessageAt := reads.latestUserMessageAt
    pendingApprovalCount := reads.pendingApprovalCount
    pendingUserInputCount := reads.pendingUserInputCount
    hasActionableProposedPlan := reads.hasActionableProposedPlan row.latestTurnId }

/-- The turn with the highest checkpoint that a revert keeps. -/
def latestRetainedTurn (turns : List (Option TurnId × Option ℕ)) (turnCount : ℕ) :
    Option TurnId :=
  (turns.foldl (fun (latest : Option (TurnId × ℕ)) turn ↦
    match turn with
    | (some turnId, some count) =>
      if count ≤ turnCount ∧ latest.all (·.2 < count) then some (turnId, count) else latest
    | _ => latest) none).map Prod.fst

/-- The time of the latest user message, after one more message. -/
def latestUserMessageAfter (latest : Option IsoDateTime) (payload : ThreadMessageSentPayload) :
    Option IsoDateTime :=
  if payload.role = .user ∧ !isImportedAgentSessionMessageId payload.messageId ∧
      latest.all (stringLt · payload.createdAt) then some payload.createdAt
  else latest

variable (js : JsRuntime)

/-- **What an event does to the row of its thread**, and to the links that go with it. -/
def updateThreadRow (reads : ThreadReads) (occurredAt : IsoDateTime) (threadId : ThreadId)
    (payload : ThreadEventPayload) (row : ProjectionThread) (tables : ThreadTables) :
    ThreadTables :=
  match payload with
  | .created _ => tables
  | .deleted deletedAt =>
    tables.upsertThread { row with deletedAt := some deletedAt, updatedAt := deletedAt }
  | .archived archivedAt updatedAt => tables.upsertThread
      { row with
        archivedAt := some archivedAt
        titleRegenerationRequestId := none
        titleRegenerationStartedAt := none
        updatedAt }
  | .unarchived updatedAt => tables.upsertThread { row with archivedAt := none, updatedAt }
  | .settled settledAt updatedAt => tables.upsertThread
      { row with
        settledOverride := some .settled
        settledAt := some settledAt
        unsettledAt := none
        activeOrderKey := none
        updatedAt }
  | .unsettled reason updatedAt => tables.upsertThread
      { row with
        settledOverride := if reason = .user then some .active else none
        settledAt := none
        -- a thread that was pinned active keeps its place in the active list
        unsettledAt := if row.settledOverride = some .active then row.unsettledAt
          else some updatedAt
        updatedAt }
  | .snoozed snoozedUntil snoozedAt updatedAt => tables.upsertThread
      { row with snoozedUntil := some snoozedUntil, snoozedAt := some snoozedAt, updatedAt }
  | .unsnoozed _ updatedAt => tables.upsertThread
      { row with snoozedUntil := none, snoozedAt := none, updatedAt }
  | .pinned pinnedAt pinOrderKey updatedAt => tables.upsertThread
      { row with
        pinnedAt := some pinnedAt
        pinOrderKey := pinOrderKey.or row.pinOrderKey
        updatedAt }
  | .unpinned updatedAt => tables.upsertThread
      { row with pinnedAt := none, pinOrderKey := none, updatedAt }
  | .pinReordered orderKey updatedAt => tables.upsertThread
      { row with pinOrderKey := some orderKey, updatedAt }
  | .metaUpdated payload =>
    let tables := tables.upsertThread
      { row with
        title := payload.title.getD row.title
        activeOrderKey := payload.activeOrderKey.getD row.activeOrderKey
        titleState := payload.titleState.getD row.titleState
        titleRegenerationRequestId := match payload.titleRegeneration with
          | none => row.titleRegenerationRequestId
          | some regeneration => regeneration.map (·.requestId)
        titleRegenerationStartedAt := match payload.titleRegeneration with
          | none => row.titleRegenerationStartedAt
          | some regeneration => regeneration.map (·.startedAt)
        modelSelection := payload.modelSelection.getD row.modelSelection
        branch := payload.branch.getD row.branch
        worktreePath := payload.worktreePath.getD row.worktreePath
        linkedPullRequest := payload.linkedPullRequest.getD row.linkedPullRequest
        branchPullRequest := payload.branchPullRequest.getD row.branchPullRequest
        updatedAt := payload.updatedAt }
    match payload.linkedPullRequest with
    | none => tables
    | some linked =>
      -- the single link of old events owns the manual rows, and only those
      let tables := tables.deletePullRequestsBySource threadId .manual
      match linked with
      | none => tables
      | some linked => tables.upsertPullRequest js threadId
          { toThreadPullRequestKey :=
              legacyThreadPullRequestKey js linked.repository linked.number linked.url
            url := linked.url
            source := .manual
            linkedAt := payload.updatedAt
            snapshot := none
            stack := none }
  | .pullRequestLinked link updatedAt =>
    (tables.upsertPullRequest js threadId link).upsertThread { row with updatedAt }
  | .pullRequestUnlinked key updatedAt =>
    let tables := match tables.findPullRequest js threadId key with
      | none => tables
      | some link => tables.deletePullRequest js threadId link.toThreadPullRequestKey
    tables.upsertThread { row with updatedAt }
  | .pullRequestSynced key snapshot stack updatedAt =>
    -- a sync for a link the user removed in the meantime is stale
    match tables.findPullRequest js threadId key with
    | none => tables
    | some link =>
      (tables.upsertPullRequest js threadId
        { link.toThreadPullRequestLink with snapshot := some snapshot, stack }).upsertThread
          { row with updatedAt }
  | .runtimeModeSet runtimeMode updatedAt => tables.upsertThread { row with runtimeMode, updatedAt }
  | .interactionModeSet interactionMode updatedAt =>
    tables.upsertThread { row with interactionMode, updatedAt }
  | .messageSent payload => tables.upsertThread
      { row with
        updatedAt := occurredAt
        latestUserMessageAt := latestUserMessageAfter row.latestUserMessageAt payload }
  | .proposedPlanUpserted _ | .approvalResponseRequested .. | .userInputResponseRequested ..
  | .activityAppended _ =>
    let row := { row with updatedAt := occurredAt }
    tables.upsertThread (if shouldRefreshThreadShellSummary payload
      then refreshThreadShellSummary reads row else row)
  | .sessionSet session => tables.upsertThread (refreshThreadShellSummary reads
      { row with
        -- the end of a session must not erase which turn was the latest
        latestTurnId := session.activeTurnId.or row.latestTurnId
        updatedAt := occurredAt })
  | .turnDiffCompleted checkpoint => tables.upsertThread (refreshThreadShellSummary reads
      { row with latestTurnId := some checkpoint.turnId, updatedAt := occurredAt })
  | .reverted turnCount => tables.upsertThread (refreshThreadShellSummary reads
      { row with
        latestTurnId := latestRetainedTurn reads.turns turnCount
        updatedAt := occurredAt })
  | .turnStartRequested _ | .turnInterruptRequested .. | .checkpointRevertRequested ..
  | .sessionStopRequested _ => tables

/-- **The projector of threads.** -/
def applyThreadsProjection (reads : ThreadReads) (occurredAt : IsoDateTime) (threadId : ThreadId)
    (payload : ThreadEventPayload) (tables : ThreadTables) : ThreadTables :=
  match payload with
  -- links belong to the earlier incarnation of the id
  | .created payload =>
    (tables.deletePullRequests threadId).upsertThread (createdThreadRow threadId payload)
  | payload =>
    -- a tombstone must not show up as linked to a pull request
    let tables := match payload with
      | .deleted _ => tables.deletePullRequests threadId
      | _ => tables
    match tables.threads.get threadId with
    | none => tables
    | some row => updateThreadRow js reads occurredAt threadId payload row tables

/-- Whether an event creates or deletes its thread. -/
def ThreadEventPayload.bounds : ThreadEventPayload → Bool
  | .created _ | .deleted _ => true
  | _ => false

variable {js}

/-- The other events write a row that is there. -/
theorem applyThreadsProjection_of_bounds {reads : ThreadReads} {occurredAt : IsoDateTime}
    {threadId : ThreadId} {payload : ThreadEventPayload} {tables : ThreadTables}
    (h : payload.bounds = false) :
    applyThreadsProjection js reads occurredAt threadId payload tables =
      match tables.threads.get threadId with
      | none => tables
      | some row => updateThreadRow js reads occurredAt threadId payload row tables := by
  cases payload <;> first | rfl | cases h

end Awen.Orchestration
