import Awen.Orchestration.Projector

/-!
# The thread detail of a client

A client folds the events of one thread into the copy it shows. `applyThreadDetailEvent` is that
reducer: it answers with the new thread, says that the thread is gone, or says that the event does
not concern it. It is written apart from the read model of the server, and unlike that one it
bounds none of its lists. Whether an object is the same one as before is not part of the model, so
that the index of activity ids, which only skips sorting a sorted list, is left out
(`appendDetailActivity_of_sorted`).
-/

namespace Awen.Orchestration

inductive ThreadDetailReducerResult
  | updated (thread : OrchestrationThread)
  | deleted
  | unchanged

/-! ## Orders -/

/-- The code units of a text, by which texts are ordered. -/
def stringUnits (s : String) : List ℕ := s.toList.flatMap utf16Units

/-- Proposed plans by time, then by id. -/
def proposedPlanOrder : OrchestrationProposedPlan → OrchestrationProposedPlan → Ordering :=
  compareLex (compareOn fun p ↦ stringUnits p.createdAt) (compareOn fun p ↦ stringUnits p.id)

/-- Activities by sequence, those without one last; then by time and by id. -/
def activityOrder : OrchestrationThreadActivity → OrchestrationThreadActivity → Ordering :=
  compareLex (compareOn fun a ↦ a.sequence.getD maxSafeInteger)
    (compareLex (compareOn fun a ↦ stringUnits a.createdAt) (compareOn fun a ↦ stringUnits a.id))

instance : Std.TransCmp activityOrder :=
  inferInstanceAs (Std.TransCmp (compareLex _ (compareLex _ _)))

/-! ## Activities -/

/-- Whether an activity tells how full the context window is. -/
def isResolvableContextWindowActivity (activity : OrchestrationThreadActivity) : Bool :=
  activity.kind = "context-window.updated" ∧
    ((activity.payload.field "usedTokens").bind Json.number?).any (0 ≤ ·)

/-- Append an activity in place of the one with its id, in order. A resolvable reading of the
context window takes the place of the earlier ones of its turn. -/
def appendDetailActivity (activities : List OrchestrationThreadActivity)
    (activity : OrchestrationThreadActivity) : List OrchestrationThreadActivity :=
  stableSort (fun left right ↦ (activityOrder left right).isLE)
    (activities.filter (fun entry ↦ entry.id ≠ activity.id ∧
      ¬(isResolvableContextWindowActivity activity ∧ entry.turnId = activity.turnId ∧
        isResolvableContextWindowActivity entry)) ++ [activity])

/-! ## Messages and turns -/

/-- A message takes the place of the one with its id; deltas are appended to its text, and keep the
time of the message. -/
def upsertDetailMessage (messages : List OrchestrationMessage)
    (payload : ThreadMessageSentPayload) : List OrchestrationMessage :=
  if messages.any (·.id = payload.messageId) then
    messages.map fun entry ↦
      if entry.id = payload.messageId then
        { entry with
          text := if payload.streaming then entry.text ++ payload.text
            else if payload.text ≠ "" then payload.text else entry.text
          streaming := payload.streaming
          turnId := payload.turnId
          updatedAt := if payload.streaming then entry.updatedAt else payload.updatedAt
          attachments := payload.attachments.or entry.attachments }
      else entry
  else
    messages ++ [{
      id := payload.messageId
      role := payload.role
      text := payload.text
      attachments := payload.attachments
      turnId := payload.turnId
      streaming := payload.streaming
      createdAt := payload.createdAt
      updatedAt := payload.updatedAt }]

/-- The latest turn after an assistant message of a turn. A message settles its turn only when no
session runs the turn any more. -/
def latestTurnAfterMessage (thread : OrchestrationThread) (payload : ThreadMessageSentPayload) :
    Option OrchestrationLatestTurn :=
  match payload.role, payload.turnId with
  | .assistant, some turnId =>
    if thread.latestTurn.all (·.turnId = turnId) then
      let settlesTurn := !payload.streaming && !turnStillRunning thread.session turnId
      some {
        turnId
        state := if settlesTurn then
            match thread.latestTurn.map OrchestrationLatestTurn.state with
            | some .interrupted => .interrupted
            | some .error => .error
            | _ => .completed
          else .running
        requestedAt := (thread.latestTurn.map (·.requestedAt)).getD payload.createdAt
        startedAt := (thread.latestTurn.bind (·.startedAt)).or (some payload.createdAt)
        completedAt := if settlesTurn then some payload.updatedAt
          else thread.latestTurn.bind (·.completedAt)
        assistantMessageId := some payload.messageId }
    else thread.latestTurn
  | _, _ => thread.latestTurn

/-- Point the checkpoint of a turn at a message. -/
def rebindCheckpointAssistantMessage (checkpoints : List OrchestrationCheckpointSummary)
    (turnId : TurnId) (messageId : MessageId) : List OrchestrationCheckpointSummary :=
  checkpoints.map fun entry ↦
    if entry.turnId = turnId then { entry with assistantMessageId := some messageId } else entry

/-- The checkpoints after a message. -/
def checkpointsAfterMessage (checkpoints : List OrchestrationCheckpointSummary)
    (payload : ThreadMessageSentPayload) : List OrchestrationCheckpointSummary :=
  match payload.role, payload.turnId with
  | .assistant, some turnId =>
    rebindCheckpointAssistantMessage checkpoints turnId payload.messageId
  | _, _ => checkpoints

variable (js : JsRuntime)

/-- The messages that a revert keeps, chosen as on the server. -/
def retainMessagesAfterRevert (messages : List OrchestrationMessage)
    (retainedTurnIds : List TurnId) (turnCount : ℕ) : List OrchestrationMessage :=
  retainThreadMessagesAfterRevert js messages retainedTurnIds turnCount

/-! ## Pull requests -/

/-- Swap the links. The legacy link stays while one of them still has its URL: detail events cannot
tell the hosts of projects. -/
def withPullRequests (thread : OrchestrationThread) (pullRequests : List ThreadPullRequestLink)
    (updatedAt : IsoDateTime) : OrchestrationThread :=
  { thread with
    pullRequests
    linkedPullRequest := thread.linkedPullRequest.filter fun linked ↦
      pullRequests.any fun link ↦ link.source ≠ .stackDismissed ∧ link.url = linked.url
    updatedAt }

/-! ## The reducer -/

/-- **What a thread event does to the thread a client shows.** -/
def applyThreadDetailPayload (occurredAt : IsoDateTime) (threadId : ThreadId)
    (thread : OrchestrationThread) (payload : ThreadEventPayload) : ThreadDetailReducerResult :=
  match payload with
  | .created payload => .updated (createdThread threadId payload)
  | .deleted _ => .deleted
  | .archived archivedAt updatedAt => .updated
      { thread with archivedAt := some archivedAt, titleRegeneration := none, updatedAt }
  | .unarchived updatedAt => .updated { thread with archivedAt := none, updatedAt }
  | .settled settledAt updatedAt => .updated
      { thread with
        settledOverride := some .settled
        settledAt := some settledAt
        unsettledAt := none
        activeOrderKey := none
        updatedAt }
  | .unsettled reason updatedAt => .updated
      { thread with
        settledOverride := if reason = .user then some .active else none
        settledAt := none
        -- a thread that was pinned active keeps its place in the active list
        unsettledAt := if thread.settledOverride = some .active then thread.unsettledAt
          else some updatedAt
        updatedAt }
  | .snoozed snoozedUntil snoozedAt updatedAt => .updated
      { thread with snoozedUntil := some snoozedUntil, snoozedAt := some snoozedAt, updatedAt }
  | .unsnoozed _ updatedAt => .updated
      { thread with snoozedUntil := none, snoozedAt := none, updatedAt }
  | .pinned pinnedAt pinOrderKey updatedAt => .updated
      { thread with
        pinnedAt := some pinnedAt
        pinOrderKey := pinOrderKey.or thread.pinOrderKey
        updatedAt }
  | .unpinned updatedAt => .updated
      { thread with pinnedAt := none, pinOrderKey := none, updatedAt }
  | .pinReordered orderKey updatedAt => .updated
      { thread with pinOrderKey := some orderKey, updatedAt }
  | .metaUpdated payload => .updated
      { thread with
        title := payload.title.getD thread.title
        titleState := payload.titleState.getD thread.titleState
        titleRegeneration := payload.titleRegeneration.getD thread.titleRegeneration
        modelSelection := payload.modelSelection.getD thread.modelSelection
        branch := payload.branch.getD thread.branch
        worktreePath := payload.worktreePath.getD thread.worktreePath
        -- the links stay as they are
        linkedPullRequest := payload.linkedPullRequest.getD thread.linkedPullRequest
        branchPullRequest := payload.branchPullRequest.getD thread.branchPullRequest
        activeOrderKey := payload.activeOrderKey.getD thread.activeOrderKey
        updatedAt := payload.updatedAt }
  | .pullRequestLinked link updatedAt =>
    let others := thread.pullRequests.filter fun existing ↦ !linksEqual js existing link
    .updated (withPullRequests thread (others ++ [link]) updatedAt)
  | .pullRequestUnlinked key updatedAt =>
    .updated (withPullRequests thread (removePullRequestLink js thread.pullRequests key) updatedAt)
  | .pullRequestSynced key snapshot stack updatedAt =>
    if thread.pullRequests.any (linkHasKey js key) then
      .updated (withPullRequests thread (thread.pullRequests.map fun existing ↦
        if linkHasKey js key existing then { existing with snapshot := some snapshot, stack }
        else existing) updatedAt)
    else .unchanged
  | .runtimeModeSet runtimeMode updatedAt => .updated { thread with runtimeMode, updatedAt }
  | .interactionModeSet interactionMode updatedAt =>
    .updated { thread with interactionMode, updatedAt }
  | .turnStartRequested payload => .updated
      { thread with
        modelSelection := payload.modelSelection.getD thread.modelSelection
        runtimeMode := payload.runtimeMode
        interactionMode := payload.interactionMode
        updatedAt := occurredAt }
  | .turnInterruptRequested turnId createdAt =>
    match thread.latestTurn, turnId with
    | some latestTurn, some turnId =>
      if latestTurn.turnId = turnId then .updated
        { thread with
          latestTurn := some { latestTurn with
            state := .interrupted
            startedAt := latestTurn.startedAt.or (some createdAt)
            completedAt := latestTurn.completedAt.or (some createdAt) }
          updatedAt := occurredAt }
      else .unchanged
    | _, _ => .unchanged
  | .messageSent payload => .updated
      { thread with
        messages := upsertDetailMessage thread.messages payload
        checkpoints := checkpointsAfterMessage thread.checkpoints payload
        latestTurn := latestTurnAfterMessage thread payload
        updatedAt := occurredAt }
  | .sessionSet session => .updated
      { thread with
        session := some session
        latestTurn := latestTurnAfterSessionSet thread.latestTurn session
        updatedAt := occurredAt }
  | .sessionStopRequested createdAt =>
    match thread.session with
    | none => .unchanged
    | some session => .updated
        { thread with
          session := some
            { session with status := .stopped, activeTurnId := none, updatedAt := createdAt }
          updatedAt := occurredAt }
  | .proposedPlanUpserted proposedPlan => .updated
      { thread with
        proposedPlans := stableSort
          (fun left right ↦ (proposedPlanOrder left right).isLE)
          (thread.proposedPlans.filter (·.id ≠ proposedPlan.id) ++ [proposedPlan])
        updatedAt := occurredAt }
  | .turnDiffCompleted checkpoint =>
    -- a placeholder does not overwrite a checkpoint that was captured
    if (thread.checkpoints.find? (·.turnId = checkpoint.turnId)).any (·.status ≠ .missing)
        ∧ checkpoint.status = .missing then .unchanged
    else .updated
      { thread with
        checkpoints := sortCheckpoints
          (thread.checkpoints.filter (·.turnId ≠ checkpoint.turnId) ++ [checkpoint])
        -- only the latest turn takes the times of its checkpoint
        latestTurn := if !turnStillRunning thread.session checkpoint.turnId
            ∧ thread.latestTurn.all (·.turnId = checkpoint.turnId) then
          some (latestTurnAfterDiff thread.latestTurn checkpoint) else thread.latestTurn
        updatedAt := occurredAt }
  | .reverted turnCount =>
    let checkpoints := sortCheckpoints
      (thread.checkpoints.filter (·.checkpointTurnCount ≤ turnCount))
    let turnIds := checkpoints.map (·.turnId)
    .updated
      { thread with
        checkpoints
        messages := retainMessagesAfterRevert js thread.messages turnIds turnCount
        proposedPlans := thread.proposedPlans.filter fun plan ↦ plan.turnId.all (· ∈ turnIds)
        activities := thread.activities.filter fun activity ↦ activity.turnId.all (· ∈ turnIds)
        latestTurn := checkpoints.getLast?.map latestTurnOfCheckpoint
        updatedAt := occurredAt }
  | .activityAppended activity => .updated
      { thread with
        activities := appendDetailActivity thread.activities activity
        updatedAt := occurredAt }
  | .approvalResponseRequested .. | .userInputResponseRequested ..
  | .checkpointRevertRequested .. => .unchanged

/-- **One event folded into the thread that a client shows.** -/
def applyThreadDetailEvent (thread : OrchestrationThread) (event : OrchestrationEvent) :
    ThreadDetailReducerResult :=
  match event.payload with
  | .project .. => .unchanged
  | .thread threadId payload =>
    applyThreadDetailPayload js event.occurredAt threadId thread payload

/-! ## What the reducer answers -/

/-- Whether an event deletes its thread. -/
def OrchestrationEvent.deletesThread (event : OrchestrationEvent) : Bool :=
  match event.payload with
  | .thread _ (.deleted _) => true
  | _ => false

/-- Whether an event reverts its thread. -/
def OrchestrationEvent.revertsThread (event : OrchestrationEvent) : Bool :=
  match event.payload with
  | .thread _ (.reverted _) => true
  | _ => false

/-- **A thread is gone exactly when it was deleted.** -/
theorem applyThreadDetailEvent_eq_deleted_iff {thread : OrchestrationThread}
    {event : OrchestrationEvent} :
    applyThreadDetailEvent js thread event = .deleted ↔ event.deletesThread = true := by
  unfold applyThreadDetailEvent OrchestrationEvent.deletesThread
  cases event.payload with
  | project => simp
  | thread threadId payload =>
    cases payload <;> simp only [applyThreadDetailPayload] <;> (repeat' split) <;> simp

/-! ## The shortcut for activities -/

/-- **An activity that comes last is appended without sorting**, where the list is sorted and does
not have its id. -/
theorem appendDetailActivity_of_sorted {activities : List OrchestrationThreadActivity}
    {activity : OrchestrationThreadActivity}
    (hsorted : activities.Pairwise fun a b ↦ (activityOrder a b).isLE = true)
    (hwindow : isResolvableContextWindowActivity activity = false)
    (hlast : ∀ last ∈ activities.getLast?, (activityOrder last activity).isLE = true)
    (hid : ∀ entry ∈ activities, entry.id ≠ activity.id) :
    appendDetailActivity activities activity = activities ++ [activity] := by
  have hkept : activities.filter (fun entry ↦ entry.id ≠ activity.id ∧
      ¬(isResolvableContextWindowActivity activity ∧ entry.turnId = activity.turnId ∧
        isResolvableContextWindowActivity entry)) = activities :=
    List.filter_eq_self.mpr fun entry hentry ↦ by simp [hwindow, hid entry hentry]
  rw [appendDetailActivity, hkept]
  refine stableSort_of_pairwise
    (List.pairwise_append.mpr ⟨hsorted, List.pairwise_singleton _ _, ?_⟩)
  intro entry hentry other hother
  rw [List.mem_singleton.mp hother]
  -- the last entry is not greater than the activity, and no entry is greater than the last one
  rcases List.eq_nil_or_concat activities with rfl | ⟨front, last, rfl⟩
  · simp at hentry
  · have hle : (activityOrder last activity).isLE = true := hlast last (by simp)
    rw [List.concat_eq_append] at hsorted hentry
    rcases List.mem_append.mp hentry with hfront | hlast
    · exact Std.TransCmp.isLE_trans
        ((List.pairwise_append.mp hsorted).2.2 entry hfront last (List.mem_singleton_self last)) hle
    · rwa [List.mem_singleton.mp hlast]

end Awen.Orchestration
