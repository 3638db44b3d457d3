import Awen.Library.Json

/-!
# The data of the orchestration model

Projects and threads as the command model, the projections and the clients exchange them. Ids,
dates and free text are strings; a field that is optional and nullable is one `Option`, because the
program reads an absent field and a null one alike.
-/

namespace Awen.Orchestration

abbrev ProjectId := String
abbrev ThreadId := String
abbrev TurnId := String
abbrev MessageId := String
abbrev EventId := String
abbrev CommandId := String
abbrev ApprovalRequestId := String
abbrev CheckpointRef := String
abbrev IsoDateTime := String

/-- A model selection is passed on as it is; nothing here looks into it. -/
abbrev ModelSelection := Json

inductive RuntimeMode
  | approvalRequired
  | autoAcceptEdits
  | auto
  | fullAccess
  deriving DecidableEq, Repr

inductive ProviderInteractionMode
  | default
  | plan
  deriving DecidableEq, Repr

/-! ## Projects -/

/-- Which repository a workspace is a checkout of, as its git remote tells. -/
structure RepositoryIdentity where
  canonicalKey : String
  remoteUrl : String
  displayName : Option String := none
  provider : Option String := none
  owner : Option String := none
  name : Option String := none
  deriving DecidableEq, Repr

structure ProjectScript where
  id : String
  name : String
  command : String
  deriving DecidableEq, Repr

inductive ProjectIconOverride
  | lucide (name : String)
  | emoji (emoji : String)
  | monogram (text : String)
  deriving DecidableEq, Repr

structure OrchestrationProject where
  id : ProjectId
  title : String
  workspaceRoot : String
  repositoryIdentity : Option RepositoryIdentity := none
  defaultModelSelection : Option ModelSelection := none
  defaultThreadEnvMode : Option String := none
  autoPull : Bool := false
  faviconPath : Option String := none
  projectIcon : Option ProjectIconOverride := none
  scripts : List ProjectScript := []
  createdAt : IsoDateTime
  updatedAt : IsoDateTime
  deletedAt : Option IsoDateTime := none

/-! ## Pull request links -/

/-- The single link that clients knew before a thread had several. -/
structure ThreadLinkedPullRequest where
  projectId : ProjectId
  repository : String
  number : ℕ
  url : String
  deriving DecidableEq, Repr

inductive ThreadPullRequestLinkSource
  | manual
  | created
  | agent
  | stack
  /-- A member of a native stack that the user unlinked; it stays as a tombstone. -/
  | stackDismissed
  deriving DecidableEq, Repr

inductive PullRequestState
  | opened
  | closed
  | merged
  deriving DecidableEq, Repr

structure ThreadPullRequestSnapshot where
  state : PullRequestState
  title : String
  headBranch : String
  baseBranch : String
  isDraft : Bool
  updatedAt : Option IsoDateTime
  syncedAt : IsoDateTime
  closedAt : Option String := none
  mergedAt : Option String := none
  deriving DecidableEq, Repr

structure ThreadPullRequestStackLayer where
  number : ℕ
  headBranch : String
  state : PullRequestState
  deriving DecidableEq, Repr

/-- A stack that the host itself keeps; the layers run from bottom to top. -/
structure ThreadPullRequestStack where
  id : String
  number : ℕ
  url : String
  base : String
  layers : List ThreadPullRequestStackLayer
  deriving DecidableEq, Repr

structure ThreadPullRequestKey where
  host : String
  repository : String
  number : ℕ
  deriving DecidableEq, Repr

structure ThreadPullRequestLink extends ThreadPullRequestKey where
  url : String
  source : ThreadPullRequestLinkSource
  linkedAt : IsoDateTime
  snapshot : Option ThreadPullRequestSnapshot
  stack : Option ThreadPullRequestStack
  deriving DecidableEq, Repr

/-! ## The content of a thread -/

inductive OrchestrationMessageRole
  | user
  | assistant
  | system
  deriving DecidableEq, Repr

/-- What the program reads of an attachment. -/
structure ChatAttachment where
  id : String
  name : String
  deriving DecidableEq, Repr

structure OrchestrationMessage where
  id : MessageId
  role : OrchestrationMessageRole
  text : String
  attachments : Option (List ChatAttachment) := none
  turnId : Option TurnId
  streaming : Bool
  createdAt : IsoDateTime
  updatedAt : IsoDateTime
  deriving DecidableEq, Repr

structure OrchestrationProposedPlan where
  id : String
  turnId : Option TurnId
  planMarkdown : String
  implementedAt : Option IsoDateTime := none
  implementationThreadId : Option ThreadId := none
  createdAt : IsoDateTime
  updatedAt : IsoDateTime
  deriving DecidableEq, Repr

structure SourceProposedPlanReference where
  threadId : ThreadId
  planId : String
  deriving DecidableEq, Repr

inductive OrchestrationSessionStatus
  | idle
  | starting
  | running
  | ready
  | interrupted
  | stopped
  | error
  deriving DecidableEq, Repr

/-- Whether a session is coming alive or working. -/
def OrchestrationSessionStatus.alive : OrchestrationSessionStatus → Bool
  | .starting | .running => true
  | _ => false

structure OrchestrationSession where
  status : OrchestrationSessionStatus
  activeTurnId : Option TurnId
  updatedAt : IsoDateTime
  deriving DecidableEq, Repr

inductive OrchestrationCheckpointStatus
  | ready
  | missing
  | error
  deriving DecidableEq, Repr

structure OrchestrationCheckpointSummary where
  turnId : TurnId
  checkpointTurnCount : ℕ
  checkpointRef : CheckpointRef
  status : OrchestrationCheckpointStatus
  assistantMessageId : Option MessageId
  completedAt : IsoDateTime
  deriving DecidableEq, Repr

inductive OrchestrationThreadActivityTone
  | info
  | tool
  | approval
  | error
  deriving DecidableEq, Repr

structure OrchestrationThreadActivity where
  id : EventId
  tone : OrchestrationThreadActivityTone
  kind : String
  summary : String
  payload : Json
  turnId : Option TurnId
  sequence : Option ℕ := none
  createdAt : IsoDateTime

inductive OrchestrationLatestTurnState
  | running
  | interrupted
  | completed
  | error
  deriving DecidableEq, Repr

structure OrchestrationLatestTurn where
  turnId : TurnId
  state : OrchestrationLatestTurnState
  requestedAt : IsoDateTime
  startedAt : Option IsoDateTime
  completedAt : Option IsoDateTime
  assistantMessageId : Option MessageId
  sourceProposedPlan : Option SourceProposedPlanReference := none
  deriving DecidableEq, Repr

inductive ThreadTitleSource
  | manual
  | generated
  deriving DecidableEq, Repr

/-- Who gave the title. The version changes even when a rename keeps the text. -/
structure ThreadTitleState where
  source : ThreadTitleSource
  version : CommandId
  needsRefinement : Bool
  deriving DecidableEq, Repr

/-- A pending request for a new title. -/
structure ThreadTitleRegeneration where
  requestId : CommandId
  startedAt : IsoDateTime
  deriving DecidableEq, Repr

inductive SettledOverride
  | settled
  | active
  deriving DecidableEq, Repr

/-! ## Threads and the read model -/

/-- A thread with everything that belongs to it. -/
structure OrchestrationThread where
  id : ThreadId
  projectId : ProjectId
  title : String
  modelSelection : ModelSelection
  runtimeMode : RuntimeMode
  interactionMode : ProviderInteractionMode
  branch : Option String
  worktreePath : Option String
  linkedPullRequest : Option ThreadLinkedPullRequest := none
  pullRequests : List ThreadPullRequestLink := []
  branchPullRequest : Option ThreadLinkedPullRequest := none
  latestTurn : Option OrchestrationLatestTurn := none
  createdAt : IsoDateTime
  updatedAt : IsoDateTime
  archivedAt : Option IsoDateTime := none
  settledOverride : Option SettledOverride := none
  settledAt : Option IsoDateTime := none
  unsettledAt : Option IsoDateTime := none
  snoozedUntil : Option IsoDateTime := none
  snoozedAt : Option IsoDateTime := none
  pinnedAt : Option IsoDateTime := none
  pinOrderKey : Option String := none
  activeOrderKey : Option String := none
  titleRegeneration : Option ThreadTitleRegeneration := none
  titleState : Option ThreadTitleState := none
  deletedAt : Option IsoDateTime := none
  messages : List OrchestrationMessage := []
  proposedPlans : List OrchestrationProposedPlan := []
  activities : List OrchestrationThreadActivity := []
  checkpoints : List OrchestrationCheckpointSummary := []
  session : Option OrchestrationSession := none

/-- **The read model** that commands are decided against. -/
structure OrchestrationReadModel where
  snapshotSequence : ℕ
  projects : List OrchestrationProject
  threads : List OrchestrationThread
  updatedAt : IsoDateTime

/-- The ids of imported messages have a namespace of their own. -/
def isImportedAgentSessionMessageId (messageId : MessageId) : Bool :=
  "import:".toList.isPrefixOf messageId.toList

end Awen.Orchestration
