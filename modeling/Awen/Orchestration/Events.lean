import Awen.Orchestration.Contracts

/-!
# Orchestration events

What happened, as the event store keeps it. The events of one aggregate, a project or a thread,
carry its id; here the thread events are one type, `ThreadEventPayload`, and the id stands beside
it. In `thread.meta-updated` a field that is absent leaves the value as it is, so a nullable field
is an `Option` of an `Option`.
-/

namespace Awen.Orchestration

inductive OrchestrationAggregateKind
  | project
  | thread
  deriving DecidableEq, Repr

/-- Why a thread left the settled or the snoozed state. -/
inductive ResetReason
  | user
  | activity
  deriving DecidableEq, Repr

inductive ProviderApprovalDecision
  | accept
  | acceptForSession
  | acceptAlways
  | decline
  | cancel
  deriving DecidableEq, Repr

structure OrchestrationEventMetadata where
  requestId : Option ApprovalRequestId := none
  historyImport : Bool := false
  deferredTurn : Bool := false
  deriving DecidableEq, Repr

structure ProjectCreatedPayload where
  title : String
  workspaceRoot : String
  defaultModelSelection : Option ModelSelection
  faviconPath : Option String
  projectIcon : Option ProjectIconOverride
  scripts : List ProjectScript
  createdAt : IsoDateTime
  updatedAt : IsoDateTime

structure ProjectMetaUpdatedPayload where
  title : Option String
  workspaceRoot : Option String
  defaultModelSelection : Option (Option ModelSelection)
  defaultThreadEnvMode : Option (Option String)
  autoPull : Option Bool
  faviconPath : Option (Option String)
  projectIcon : Option (Option ProjectIconOverride)
  scripts : Option (List ProjectScript)
  updatedAt : IsoDateTime

inductive ProjectEventPayload
  | created (payload : ProjectCreatedPayload)
  | metaUpdated (payload : ProjectMetaUpdatedPayload)
  | deleted (deletedAt : IsoDateTime)

structure ThreadCreatedPayload where
  projectId : ProjectId
  title : String
  modelSelection : ModelSelection
  runtimeMode : RuntimeMode
  interactionMode : ProviderInteractionMode
  branch : Option String
  worktreePath : Option String
  createdAt : IsoDateTime
  updatedAt : IsoDateTime

structure ThreadMetaUpdatedPayload where
  activeOrderKey : Option (Option String) := none
  title : Option String := none
  regenerateTitle : Bool := false
  previousTitle : Option String := none
  titleRegeneration : Option (Option ThreadTitleRegeneration) := none
  titleState : Option (Option ThreadTitleState) := none
  modelSelection : Option ModelSelection := none
  branch : Option (Option String) := none
  worktreePath : Option (Option String) := none
  linkedPullRequest : Option (Option ThreadLinkedPullRequest) := none
  branchPullRequest : Option (Option ThreadLinkedPullRequest) := none
  updatedAt : IsoDateTime

structure ThreadMessageSentPayload where
  messageId : MessageId
  role : OrchestrationMessageRole
  text : String
  attachments : Option (List ChatAttachment) := none
  turnId : Option TurnId
  streaming : Bool
  createdAt : IsoDateTime
  updatedAt : IsoDateTime

structure ThreadTurnStartRequestedPayload where
  messageId : MessageId
  modelSelection : Option ModelSelection
  titleSeed : Option String
  runtimeMode : RuntimeMode
  interactionMode : ProviderInteractionMode
  sourceProposedPlan : Option SourceProposedPlanReference
  createdAt : IsoDateTime

/-- The events of a thread. -/
inductive ThreadEventPayload
  | created (payload : ThreadCreatedPayload)
  | deleted (deletedAt : IsoDateTime)
  | archived (archivedAt updatedAt : IsoDateTime)
  | unarchived (updatedAt : IsoDateTime)
  | settled (settledAt updatedAt : IsoDateTime)
  | unsettled (reason : ResetReason) (updatedAt : IsoDateTime)
  | snoozed (snoozedUntil snoozedAt updatedAt : IsoDateTime)
  | unsnoozed (reason : ResetReason) (updatedAt : IsoDateTime)
  | pinned (pinnedAt : IsoDateTime) (pinOrderKey : Option String) (updatedAt : IsoDateTime)
  | unpinned (updatedAt : IsoDateTime)
  | pinReordered (orderKey : String) (updatedAt : IsoDateTime)
  | metaUpdated (payload : ThreadMetaUpdatedPayload)
  | pullRequestLinked (link : ThreadPullRequestLink) (updatedAt : IsoDateTime)
  | pullRequestUnlinked (key : ThreadPullRequestKey) (updatedAt : IsoDateTime)
  | pullRequestSynced (key : ThreadPullRequestKey) (snapshot : ThreadPullRequestSnapshot)
      (stack : Option ThreadPullRequestStack) (updatedAt : IsoDateTime)
  | runtimeModeSet (runtimeMode : RuntimeMode) (updatedAt : IsoDateTime)
  | interactionModeSet (interactionMode : ProviderInteractionMode) (updatedAt : IsoDateTime)
  | messageSent (payload : ThreadMessageSentPayload)
  | turnStartRequested (payload : ThreadTurnStartRequestedPayload)
  | turnInterruptRequested (turnId : Option TurnId) (createdAt : IsoDateTime)
  | approvalResponseRequested (requestId : ApprovalRequestId) (decision : ProviderApprovalDecision)
      (createdAt : IsoDateTime)
  | userInputResponseRequested (requestId : ApprovalRequestId) (createdAt : IsoDateTime)
  | checkpointRevertRequested (turnCount : ℕ) (restoreFiles : Option Bool) (createdAt : IsoDateTime)
  | reverted (turnCount : ℕ)
  | sessionStopRequested (createdAt : IsoDateTime)
  | sessionSet (session : OrchestrationSession)
  | proposedPlanUpserted (proposedPlan : OrchestrationProposedPlan)
  | turnDiffCompleted (checkpoint : OrchestrationCheckpointSummary)
  | activityAppended (activity : OrchestrationThreadActivity)

/-- The name of a thread event in the store. -/
def ThreadEventPayload.type : ThreadEventPayload → String
  | .created _ => "thread.created"
  | .deleted _ => "thread.deleted"
  | .archived .. => "thread.archived"
  | .unarchived _ => "thread.unarchived"
  | .settled .. => "thread.settled"
  | .unsettled .. => "thread.unsettled"
  | .snoozed .. => "thread.snoozed"
  | .unsnoozed .. => "thread.unsnoozed"
  | .pinned .. => "thread.pinned"
  | .unpinned _ => "thread.unpinned"
  | .pinReordered .. => "thread.pin-reordered"
  | .metaUpdated _ => "thread.meta-updated"
  | .pullRequestLinked .. => "thread.pull-request-linked"
  | .pullRequestUnlinked .. => "thread.pull-request-unlinked"
  | .pullRequestSynced .. => "thread.pull-request-synced"
  | .runtimeModeSet .. => "thread.runtime-mode-set"
  | .interactionModeSet .. => "thread.interaction-mode-set"
  | .messageSent _ => "thread.message-sent"
  | .turnStartRequested _ => "thread.turn-start-requested"
  | .turnInterruptRequested .. => "thread.turn-interrupt-requested"
  | .approvalResponseRequested .. => "thread.approval-response-requested"
  | .userInputResponseRequested .. => "thread.user-input-response-requested"
  | .checkpointRevertRequested .. => "thread.checkpoint-revert-requested"
  | .reverted _ => "thread.reverted"
  | .sessionStopRequested _ => "thread.session-stop-requested"
  | .sessionSet _ => "thread.session-set"
  | .proposedPlanUpserted _ => "thread.proposed-plan-upserted"
  | .turnDiffCompleted _ => "thread.turn-diff-completed"
  | .activityAppended _ => "thread.activity-appended"

/-- An event's payload beside the aggregate it belongs to. -/
inductive OrchestrationEventPayload
  | project (projectId : ProjectId) (payload : ProjectEventPayload)
  | thread (threadId : ThreadId) (payload : ThreadEventPayload)

/-- An event as the decider plans it: the event store has still to give it its sequence. -/
structure PlannedOrchestrationEvent where
  aggregateKind : OrchestrationAggregateKind
  aggregateId : String
  occurredAt : IsoDateTime
  commandId : CommandId
  metadata : OrchestrationEventMetadata := {}
  payload : OrchestrationEventPayload

structure OrchestrationEvent extends PlannedOrchestrationEvent where
  sequence : ℕ

end Awen.Orchestration
