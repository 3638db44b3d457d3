import Awen.Orchestration.Events

/-!
# Orchestration commands

What clients and the server's own reactors ask for. Every command carries its id and names a
project or a thread; the commands of a thread are the type `ThreadCommand`, and the thread's id
stands beside it. A metadata update may set a title or ask for a new one, not both: its schema
refuses the combination, and here no such value can be built.
-/

namespace Awen.Orchestration

structure ProjectMetaUpdate where
  title : Option String := none
  workspaceRoot : Option String := none
  defaultModelSelection : Option (Option ModelSelection) := none
  defaultThreadEnvMode : Option (Option String) := none
  autoPull : Option Bool := none
  faviconPath : Option (Option String) := none
  projectIcon : Option (Option ProjectIconOverride) := none
  scripts : Option (List ProjectScript) := none

inductive ProjectCommand
  | create (title workspaceRoot : String) (createdAt : IsoDateTime)
  | metaUpdate (update : ProjectMetaUpdate)
  | delete (force : Bool)

structure ThreadCreate where
  projectId : ProjectId
  title : String
  modelSelection : ModelSelection
  runtimeMode : RuntimeMode
  interactionMode : ProviderInteractionMode
  branch : Option String
  worktreePath : Option String
  createdAt : IsoDateTime
  historyImport : Bool := false

/-- A metadata update: an absent field is left as it is, a null one is cleared. -/
structure ThreadMetaUpdate where
  title : Option String := none
  regenerateTitle : Bool := false
  modelSelection : Option ModelSelection := none
  branch : Option (Option String) := none
  expectedBranch : Option (Option String) := none
  worktreePath : Option (Option String) := none
  linkedPullRequest : Option (Option ThreadLinkedPullRequest) := none
  /-- A title and `regenerateTitle` cannot be specified together. -/
  exclusive : title.isNone ∨ regenerateTitle = false := by simp

/-- What pull request discovery saw when it looked the pull request up. -/
structure PullRequestSyncExpectation where
  workspaceRoot : String
  branch : Option String
  worktreePath : Option String
  linkedPullRequest : Option ThreadLinkedPullRequest
  branchPullRequest : Option ThreadLinkedPullRequest

structure PullRequestSync where
  projectId : ProjectId
  snapshotSequence : ℕ
  expected : PullRequestSyncExpectation
  branchPullRequest : Option ThreadLinkedPullRequest
  linkedPullRequest : Option ThreadLinkedPullRequest := none

structure UserMessage where
  messageId : MessageId
  text : String
  attachments : List ChatAttachment

structure TurnStart where
  message : UserMessage
  modelSelection : Option ModelSelection := none
  titleSeed : Option String := none
  sourceProposedPlan : Option SourceProposedPlanReference := none
  createdAt : IsoDateTime

structure UserInputRespond where
  requestId : ApprovalRequestId
  answers : List (String × Json)
  attachmentsByQuestionId : Option (List (String × List ChatAttachment)) := none
  createdAt : IsoDateTime

structure ImportedMessage where
  messageId : MessageId
  role : OrchestrationMessageRole
  text : String
  createdAt : IsoDateTime
  /-- Only users and assistants speak in an imported history. -/
  role_ne_system : role ≠ .system

/-- The commands of a thread. -/
inductive ThreadCommand
  | create (create : ThreadCreate)
  | delete
  | archive
  | unarchive
  | settle
  | autoSettle (snapshotSequence : ℕ) (settledAt : IsoDateTime)
  | unsettle
  | snooze (snoozedUntil : IsoDateTime)
  | unsnooze
  | pin (orderKey : Option String)
  | unpin
  | pinReorder (orderKey : String)
  | activeReorder (orderKey : String)
  | metaUpdate (update : ThreadMetaUpdate)
  | pullRequestLink (key : ThreadPullRequestKey) (url : String)
      (source : ThreadPullRequestLinkSource)
  | pullRequestUnlink (key : ThreadPullRequestKey)
  | pullRequestLinkSync (key : ThreadPullRequestKey) (snapshot : ThreadPullRequestSnapshot)
      (stack : Option ThreadPullRequestStack)
  | pullRequestSync (sync : PullRequestSync)
  | titleGenerateComplete (expectedTitle : String) (expectedVersion : Option CommandId)
      (title : String) (needsRefinement : Bool)
  | titleRefine (expectedVersion : CommandId)
  | titleRegenerationComplete (requestId : CommandId) (title : Option String)
  | runtimeModeSet (runtimeMode : RuntimeMode)
  | interactionModeSet (interactionMode : ProviderInteractionMode)
  | turnStart (start : TurnStart)
  | messageUserAppend (message : UserMessage) (createdAt : IsoDateTime)
  | turnInterrupt (turnId : Option TurnId) (createdAt : IsoDateTime)
  | approvalRespond (requestId : ApprovalRequestId) (decision : ProviderApprovalDecision)
      (createdAt : IsoDateTime)
  | userInputRespond (respond : UserInputRespond)
  | userInputDismiss (requestId : ApprovalRequestId) (createdAt : IsoDateTime)
  | checkpointRevert (turnCount : ℕ) (createdAt : IsoDateTime)
  | conversationRevert (turnCount : ℕ) (createdAt : IsoDateTime)
  | sessionStop (createdAt : IsoDateTime) (onlyIfSettled : Bool)
  | sessionSet (session : OrchestrationSession) (createdAt : IsoDateTime)
  | messageAssistantDelta (messageId : MessageId) (delta : String) (turnId : Option TurnId)
      (createdAt : IsoDateTime)
  | messageAssistantComplete (messageId : MessageId) (turnId : Option TurnId)
      (createdAt : IsoDateTime)
  | historyImport (messages : List ImportedMessage)
  | proposedPlanUpsert (proposedPlan : OrchestrationProposedPlan) (createdAt : IsoDateTime)
  | turnDiffComplete (checkpoint : OrchestrationCheckpointSummary) (createdAt : IsoDateTime)
  | revertComplete (turnCount : ℕ) (createdAt : IsoDateTime)
  | activityAppend (activity : OrchestrationThreadActivity) (createdAt : IsoDateTime)

/-- The name of a thread command on the wire. -/
def ThreadCommand.type : ThreadCommand → String
  | .create _ => "thread.create"
  | .delete => "thread.delete"
  | .archive => "thread.archive"
  | .unarchive => "thread.unarchive"
  | .settle => "thread.settle"
  | .autoSettle .. => "thread.auto-settle"
  | .unsettle => "thread.unsettle"
  | .snooze _ => "thread.snooze"
  | .unsnooze => "thread.unsnooze"
  | .pin _ => "thread.pin"
  | .unpin => "thread.unpin"
  | .pinReorder _ => "thread.pin.reorder"
  | .activeReorder _ => "thread.active.reorder"
  | .metaUpdate _ => "thread.meta.update"
  | .pullRequestLink .. => "thread.pull-request.link"
  | .pullRequestUnlink _ => "thread.pull-request.unlink"
  | .pullRequestLinkSync .. => "thread.pull-request-link.sync"
  | .pullRequestSync _ => "thread.pull-request.sync"
  | .titleGenerateComplete .. => "thread.title.generate.complete"
  | .titleRefine _ => "thread.title.refine"
  | .titleRegenerationComplete .. => "thread.title.regeneration.complete"
  | .runtimeModeSet _ => "thread.runtime-mode.set"
  | .interactionModeSet _ => "thread.interaction-mode.set"
  | .turnStart _ => "thread.turn.start"
  | .messageUserAppend .. => "thread.message.user.append"
  | .turnInterrupt .. => "thread.turn.interrupt"
  | .approvalRespond .. => "thread.approval.respond"
  | .userInputRespond _ => "thread.user-input.respond"
  | .userInputDismiss .. => "thread.user-input.dismiss"
  | .checkpointRevert .. => "thread.checkpoint.revert"
  | .conversationRevert .. => "thread.conversation.revert"
  | .sessionStop .. => "thread.session.stop"
  | .sessionSet .. => "thread.session.set"
  | .messageAssistantDelta .. => "thread.message.assistant.delta"
  | .messageAssistantComplete .. => "thread.message.assistant.complete"
  | .historyImport _ => "thread.history.import"
  | .proposedPlanUpsert .. => "thread.proposed-plan.upsert"
  | .turnDiffComplete .. => "thread.turn.diff.complete"
  | .revertComplete .. => "thread.revert.complete"
  | .activityAppend .. => "thread.activity.append"

/-- What a command asks for, beside the aggregate it names. -/
inductive OrchestrationCommandBody
  | project (projectId : ProjectId) (command : ProjectCommand)
  | thread (threadId : ThreadId) (command : ThreadCommand)

/-- **A command.** -/
structure OrchestrationCommand where
  commandId : CommandId
  body : OrchestrationCommandBody

/-- The name of a command on the wire. -/
def OrchestrationCommandBody.type : OrchestrationCommandBody → String
  | .project _ (.create ..) => "project.create"
  | .project _ (.metaUpdate _) => "project.meta.update"
  | .project _ (.delete _) => "project.delete"
  | .thread _ command => command.type

end Awen.Orchestration
