import Awen.Library.Runs
import Awen.Orchestration.TurnRows

/-!
# The two workers that number checkpoints

The ingestion of runtime events writes a placeholder when a turn changes files, and the checkpoint
reactor captures the files when the turn ends. Both read the projected checkpoints of the thread,
pick the number that follows the greatest, and dispatch later; what the other worker dispatches in
between they do not see. Each worker takes one event after the other, so each has at most one
command on the way. `WorkerStep` is what can happen to a thread next, in any order.
-/

namespace Awen.Orchestration

/-- `checkpointRefForThreadTurn`. The encoding of the thread's id is the one of the runtime. -/
def checkpointRefForThreadTurn (encode : String → String) (threadId : ThreadId) (turnCount : ℕ) :
    CheckpointRef :=
  "refs/awen/checkpoints/" ++ encode threadId ++ "/turn/" ++ toString turnCount

def maxCheckpointTurnCount (checkpoints : List OrchestrationCheckpointSummary) : ℕ :=
  checkpoints.foldl (fun count checkpoint ↦ max count checkpoint.checkpointTurnCount) 0

/-- The placeholder that a changed diff asks for, unless the turn has a checkpoint. -/
def placeholderFor (checkpoints : List OrchestrationCheckpointSummary) (turnId : TurnId)
    (eventId : EventId) (assistantMessageId : MessageId) (now : IsoDateTime) :
    Option OrchestrationCheckpointSummary :=
  if checkpoints.any (·.turnId = turnId) then none
  else some
    { turnId
      checkpointTurnCount := maxCheckpointTurnCount checkpoints + 1
      checkpointRef := "provider-diff:" ++ eventId
      status := .missing
      assistantMessageId := some assistantMessageId
      completedAt := now }

/-- `captureCheckpointFromTurnCompletion`: what the reactor dispatches when a turn ends, with
`lastMessageId` for the last assistant message of the turn, or the id that stands for it. -/
def captureFor (encode : String → String) (threadId : ThreadId)
    (session : Option OrchestrationSession) (checkpoints : List OrchestrationCheckpointSummary)
    (turnId : TurnId) (status : OrchestrationCheckpointStatus) (lastMessageId : MessageId)
    (createdAt : IsoDateTime) : Option OrchestrationCheckpointSummary :=
  -- when a primary turn is active, only that turn may produce completion checkpoints
  if (session.bind (·.activeTurnId)).any (· ≠ turnId) then none
  else if checkpoints.any fun checkpoint ↦
      checkpoint.turnId = turnId ∧ checkpoint.status ≠ .missing then none
  else
    let existingPlaceholder := checkpoints.find? fun checkpoint ↦
      checkpoint.turnId = turnId ∧ checkpoint.status = .missing
    let nextTurnCount := (existingPlaceholder.map (·.checkpointTurnCount)).getD
      (maxCheckpointTurnCount checkpoints + 1)
    some
      { turnId
        checkpointTurnCount := nextTurnCount
        checkpointRef := checkpointRefForThreadTurn encode threadId nextTurnCount
        status
        assistantMessageId :=
          (existingPlaceholder.bind (·.assistantMessageId)).or (some lastMessageId)
        completedAt := createdAt }

/-- What the reactor is about to dispatch. -/
inductive ReactorDispatch
  | capture (checkpoint : OrchestrationCheckpointSummary)
  | revert (turnCount : ℕ)

/-- The checkpoint of a capture. -/
def ReactorDispatch.captured? : ReactorDispatch → Option OrchestrationCheckpointSummary
  | capture checkpoint => some checkpoint
  | revert _ => none

/-- **A thread and the two workers.** -/
structure CheckpointWorkers where
  /-- The thread in the read model of the engine. -/
  thread : OrchestrationThread
  turns : TurnTable := {}
  /-- The placeholder that the ingestion is about to dispatch. -/
  placeholder : Option OrchestrationCheckpointSummary := none
  reactor : Option ReactorDispatch := none

/-- What is at hand when an event is committed. -/
structure CommitContext where
  projects : List OrchestrationProject := []
  reads : TurnReads := {}
  occurredAt : IsoDateTime := ""

/-- What can happen next. -/
inductive WorkerStep
  /-- The ingestion takes up `turn.diff.updated` and reads the checkpoints. -/
  | diffUpdated (turnId : TurnId) (eventId : EventId) (assistantMessageId : MessageId)
      (now : IsoDateTime)
  | placeholderDispatched (context : CommitContext)
  | ingestionFailed
  /-- The reactor takes up the end of a turn and reads the checkpoints. -/
  | turnEnded (turnId : TurnId) (status : OrchestrationCheckpointStatus)
      (lastMessageId : MessageId) (createdAt : IsoDateTime)
  /-- The reactor takes up a revert and reads the checkpoints. -/
  | revertRequested (turnCount : ℕ)
  | reactorDispatched (context : CommitContext)
  | reactorFailed
  /-- Any other event of the thread is committed. -/
  | committed (context : CommitContext) (payload : ThreadEventPayload)

/-- Whether an event is one of those that neither worker dispatches and that can follow the creation
of the thread. -/
def ThreadEventPayload.isOther : ThreadEventPayload → Bool
  | .created _ | .turnDiffCompleted _ | .reverted _ => false
  | _ => true

namespace CheckpointWorkers

variable (js : JsRuntime) (encode : String → String)

/-- The thread has just been created. -/
def start (threadId : ThreadId) (payload : ThreadCreatedPayload) : CheckpointWorkers where
  thread := createdThread threadId payload

/-- An event is committed: the read model and the table of turns take it up. -/
def commit (s : CheckpointWorkers) (context : CommitContext) (payload : ThreadEventPayload) :
    CheckpointWorkers :=
  { s with
    thread := threadPatch js context.projects context.occurredAt s.thread payload s.thread
    turns := s.turns.applyThreadTurnsProjection js context.reads context.occurredAt payload }

/-- The projected checkpoints. -/
def checkpoints (s : CheckpointWorkers) : List OrchestrationCheckpointSummary :=
  s.turns.listCheckpoints

def step (s : CheckpointWorkers) : WorkerStep → CheckpointWorkers
  | .diffUpdated turnId eventId assistantMessageId now =>
    if s.placeholder.isSome then s
    else { s with
      placeholder := placeholderFor s.checkpoints turnId eventId assistantMessageId now }
  | .placeholderDispatched context =>
    match s.placeholder with
    | none => s
    | some checkpoint =>
      { s.commit js context (.turnDiffCompleted checkpoint) with placeholder := none }
  | .ingestionFailed => { s with placeholder := none }
  | .turnEnded turnId status lastMessageId createdAt =>
    if s.reactor.isSome then s
    else { s with
      reactor := (captureFor encode s.thread.id s.thread.session s.checkpoints turnId status
        lastMessageId createdAt).map .capture }
  | .revertRequested turnCount =>
    if s.reactor.isSome ∨ maxCheckpointTurnCount s.checkpoints < turnCount then s
    else { s with reactor := some (.revert turnCount) }
  | .reactorDispatched context =>
    match s.reactor with
    | none => s
    | some (.capture checkpoint) =>
      { s.commit js context (.turnDiffCompleted checkpoint) with reactor := none }
    | some (.revert turnCount) =>
      { s.commit js context (.reverted turnCount) with reactor := none }
  | .reactorFailed => { s with reactor := none }
  | .committed context payload => if payload.isOther then s.commit js context payload else s

/-- The state after some steps. -/
def after (s : CheckpointWorkers) (steps : List WorkerStep) : CheckpointWorkers :=
  steps.foldl (step js encode) s

/-- Whether a step completes a revert. -/
def completesRevert (s : CheckpointWorkers) (step : WorkerStep) : Bool :=
  match step, s.reactor with
  | .reactorDispatched _, some (.revert _) => true
  | _, _ => false

end CheckpointWorkers

end Awen.Orchestration
