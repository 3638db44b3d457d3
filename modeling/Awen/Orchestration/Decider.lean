import Awen.Orchestration.DeciderLifecycle

/-!
# The decider

`decideOrchestrationCommand` plans the events of a command against the read model, or rejects it.
The clock and the durable activity that the engine looked up for an answer are inputs. In a
sequence of commands each one is decided against the read model that the events before it lead to.
No command of such a sequence is itself a sequence, so the recursion of the source is tied at depth
two: `decideSimpleCommand` decides the commands of a sequence, `decideOrchestrationCommand` all.
-/

namespace Awen.Orchestration

variable (js : JsRuntime)

/-! ## Turns and messages -/

def reservedMessageId (type : String) (messageId : MessageId) : OrchestrationCommandRejection :=
  .invariant type s!"Message id '{messageId}' uses the reserved imported-session namespace."

def userMessagePayload (message : UserMessage) (createdAt : IsoDateTime) :
    ThreadMessageSentPayload where
  messageId := message.messageId
  role := .user
  text := message.text
  attachments := some message.attachments
  turnId := none
  streaming := false
  createdAt
  updatedAt := createdAt

/-- The events by which activity brings a thread back: every override and every snooze ends. -/
def lifecycleResetEvents (thread : OrchestrationThread) (commandId : CommandId)
    (threadId : ThreadId) (createdAt : IsoDateTime) : List PlannedOrchestrationEvent :=
  (if thread.settledOverride.isSome then
    [threadEvent commandId threadId createdAt (.unsettled .activity createdAt)] else []) ++
  (if thread.snoozedUntil.isSome then
    [threadEvent commandId threadId createdAt (.unsnoozed .activity createdAt)] else [])

/-- The plan that a turn implements exists, in a thread of the same project. -/
def requireSourceProposedPlan (readModel : OrchestrationReadModel)
    (targetThread : OrchestrationThread) :
    Option SourceProposedPlanReference → Decision Unit
  | none => .ok ()
  | some source => do
    let type := "thread.turn.start"
    let sourceThread ← requireThread readModel type source.threadId
    ensure (sourceThread.proposedPlans.any (·.id = source.planId)) (.invariant type
      s!"Proposed plan '{source.planId}' does not exist on thread '{source.threadId}'.")
    ensure (sourceThread.projectId = targetThread.projectId) (.invariant type
      (s!"Proposed plan '{source.planId}' belongs to thread '{sourceThread.id}' in a " ++
        "different project."))

def decideTurnStart (readModel : OrchestrationReadModel) (commandId : CommandId)
    (threadId : ThreadId) (start : TurnStart) : Decision (List PlannedOrchestrationEvent) := do
  let type := "thread.turn.start"
  ensure (isImportedAgentSessionMessageId start.message.messageId = false)
    (reservedMessageId type start.message.messageId)
  let targetThread ← requireThread readModel type threadId
  requireSourceProposedPlan readModel targetThread start.sourceProposedPlan
  -- a worktree bootstrap persists the message ahead of the turn
  let persisted := targetThread.messages.any fun message ↦
    message.id = start.message.messageId ∧ message.role = .user ∧ message.turnId = none
  let event := threadEvent commandId threadId start.createdAt
  return lifecycleResetEvents targetThread commandId threadId start.createdAt ++
    (if persisted then []
      else [event (.messageSent (userMessagePayload start.message start.createdAt))]) ++
    [event (.turnStartRequested {
      messageId := start.message.messageId
      modelSelection := start.modelSelection
      titleSeed := start.titleSeed
      runtimeMode := targetThread.runtimeMode
      interactionMode := targetThread.interactionMode
      sourceProposedPlan := start.sourceProposedPlan
      createdAt := start.createdAt })]

def decideMessageUserAppend (readModel : OrchestrationReadModel) (commandId : CommandId)
    (threadId : ThreadId) (message : UserMessage) (createdAt : IsoDateTime) :
    Decision (List PlannedOrchestrationEvent) := do
  let type := "thread.message.user.append"
  ensure (isImportedAgentSessionMessageId message.messageId = false)
    (reservedMessageId type message.messageId)
  let thread ← requireThread readModel type threadId
  ensure (thread.messages.all (·.id ≠ message.messageId)) (.invariant type
    s!"Message '{message.messageId}' already exists on thread '{threadId}'.")
  return [threadEvent commandId threadId createdAt
    (.messageSent (userMessagePayload message createdAt)) { deferredTurn := true }]

/-- A delta of an assistant message, or its end. -/
def decideMessageAssistant (readModel : OrchestrationReadModel) (commandId : CommandId)
    (threadId : ThreadId) (type : String) (messageId : MessageId) (text : String)
    (turnId : Option TurnId) (streaming : Bool) (createdAt : IsoDateTime) :
    Decision (List PlannedOrchestrationEvent) := do
  ensure (isImportedAgentSessionMessageId messageId = false) (reservedMessageId type messageId)
  let _ ← requireThread readModel type threadId
  return [threadEvent commandId threadId createdAt (.messageSent {
    messageId, role := .assistant, text, turnId, streaming, createdAt, updatedAt := createdAt })]

/-- An imported history settles its thread at the time of its latest message. -/
def decideHistoryImport (readModel : OrchestrationReadModel) (commandId : CommandId)
    (threadId : ThreadId) (messages : List ImportedMessage) :
    Decision (List PlannedOrchestrationEvent) := do
  let type := "thread.history.import"
  let thread ← requireThread readModel type threadId
  ensure (thread.deletedAt = none ∧ thread.archivedAt = none ∧ thread.messages = [] ∧
      thread.latestTurn = none ∧ thread.session = none ∧ (openRequests js thread).entries.isEmpty)
    (.invariant type
      s!"Thread '{threadId}' must be active and empty before history can be imported.")
  match messages with
  | [] => .error (.invariant type "Thread history imports require at least one message.")
  | first :: _ =>
    let settledAt := messages.foldl (fun latest message ↦
      if 0 < compareDateTimeStrings js message.createdAt latest then message.createdAt else latest)
      first.createdAt
    return messages.map (fun message ↦
        threadEvent commandId threadId message.createdAt (.messageSent {
          messageId := message.messageId
          role := message.role
          text := message.text
          turnId := none
          streaming := false
          createdAt := message.createdAt
          updatedAt := message.createdAt }) { historyImport := true }) ++
      [threadEvent commandId threadId settledAt (.settled settledAt settledAt)
        { historyImport := true }]

/-! ## Sessions, activities and answers -/

def decideSessionStop (readModel : OrchestrationReadModel) (commandId : CommandId)
    (threadId : ThreadId) (createdAt : IsoDateTime) (onlyIfSettled : Bool) :
    Decision (List PlannedOrchestrationEvent) := do
  let type := "thread.session.stop"
  let thread ← requireThread readModel type threadId
  ensure (onlyIfSettled = true → thread.settledOverride = some .settled ∧
      thread.session.all (fun session ↦ !session.status.alive) ∧
      hasQueuedTurnStartForThread js thread createdAt = false)
    (.invariant type
      s!"thread {threadId} was re-engaged after settle; skipping session stop")
  return [threadEvent commandId threadId createdAt (.sessionStopRequested createdAt)]

/-- Only a session that is coming alive is activity that ends an override. -/
def decideSessionSet (readModel : OrchestrationReadModel) (commandId : CommandId)
    (threadId : ThreadId) (session : OrchestrationSession) (createdAt : IsoDateTime) :
    Decision (List PlannedOrchestrationEvent) := do
  let thread ← requireThread readModel "thread.session.set" threadId
  let event := threadEvent commandId threadId createdAt
  return (if thread.settledOverride.isSome ∧ session.status.alive then
      [event (.unsettled .activity createdAt)] else []) ++ [event (.sessionSet session)]

/-- A request is blocked-on-you work, so it ends an override. -/
def decideActivityAppend (readModel : OrchestrationReadModel) (commandId : CommandId)
    (threadId : ThreadId) (activity : OrchestrationThreadActivity) (createdAt : IsoDateTime) :
    Decision (List PlannedOrchestrationEvent) := do
  let thread ← requireThread readModel "thread.activity.append" threadId
  let event := threadEvent commandId threadId createdAt
  return (if thread.settledOverride.isSome ∧ activity.isRequest then
      [event (.unsettled .activity createdAt)] else []) ++
    [threadEvent commandId threadId createdAt (.activityAppended activity)
      { requestId := activity.requestId? }]

/-- The attachments of an answer as JSON. -/
def attachmentsJson (attachmentsByQuestionId : List (String × List ChatAttachment)) : Json :=
  .obj (attachmentsByQuestionId.map fun entry ↦ (entry.1, .arr (entry.2.map fun attachment ↦
    .obj [("id", .str attachment.id), ("name", .str attachment.name)])))

/-- The reply to one question, `none` where the answer is missing. -/
def questionReply (respond : UserInputRespond) (question : UserInputQuestion) : Option String := do
  let answer ← (respond.answers.lookup question.id).bind Json.string?
  let attachments := ((respond.attachmentsByQuestionId.getD []).lookup question.id).getD []
  if trim answer = "" ∧ attachments = [] then none
  let labels := attachments.map fun attachment ↦
    s!"Attached file: {attachment.name} ({attachment.id})"
  return String.intercalate "\n" ((question.question ++ "\n" ++ trim answer) :: labels)

/-- The questions that attachments may be given to; rejected where there are attachments and the
request cannot take them. -/
def attachableQuestions (request : Option OrchestrationThreadActivity)
    (respond : UserInputRespond) : Decision (List UserInputQuestion) := do
  let type := "thread.user-input.respond"
  let byQuestion := respond.attachmentsByQuestionId.getD []
  if byQuestion.all fun entry ↦ entry.2.isEmpty then return []
  let questions ← expect
    ((request.filter (·.kind = "user-input.requested")).bind fun r ↦
      decodeUserInputRequestedPayload r.payload)
    (.invariant type (if request.any (·.kind = "user-input.resolved")
      then "This question has already been answered."
      else "This question is no longer pending."))
  ensure (byQuestion.all fun entry ↦ (questions.find? (·.id = entry.1)).any
      (·.allowCustomAnswer ≠ some false))
    (.invariant type "This question does not accept file references.")
  return questions

/-- The commands that answer an async question: its resolution, and the message with the reply. -/
def asyncAnswer (threadId : ThreadId) (request : OrchestrationThreadActivity)
    (respond : UserInputRespond) (replies : List String) : List OrchestrationCommandBody :=
  [.thread threadId (.activityAppend {
      id := s!"async-answer:{respond.requestId}"
      kind := "user-input.resolved"
      summary := "User input submitted"
      tone := .info
      turnId := request.turnId
      createdAt := respond.createdAt
      payload := Json.object [("requestId", some (.str respond.requestId)),
        ("responseMode", some (.str "message")), ("answers", some (.obj respond.answers)),
        ("attachmentsByQuestionId", respond.attachmentsByQuestionId.map attachmentsJson)] }
      respond.createdAt),
    .thread threadId (.turnStart {
      message := {
        messageId := s!"async-answer:{respond.requestId}"
        text := String.intercalate "\n\n" replies
        attachments := (respond.attachmentsByQuestionId.getD []).flatMap Prod.snd }
      createdAt := respond.createdAt })]

/-- The record of an answer with attachments. -/
def answerSubmitted (commandId : CommandId) (request : Option OrchestrationThreadActivity)
    (respond : UserInputRespond) (questions : List UserInputQuestion) :
    OrchestrationThreadActivity where
  id := s!"question-answer:{commandId}"
  kind := "user-input.answer-submitted"
  summary := "Question answer submitted"
  tone := .info
  turnId := request.bind (·.turnId)
  createdAt := respond.createdAt
  payload := Json.object [("requestId", some (.str respond.requestId)),
    ("answers", some (.obj respond.answers)),
    ("questionTextById", some (.obj (questions.map fun q ↦ (q.id, .str q.question)))),
    ("attachmentsByQuestionId", respond.attachmentsByQuestionId.map attachmentsJson),
    ("detail", some (.str (String.intercalate "\n"
      (((respond.attachmentsByQuestionId.getD []).flatMap Prod.snd).map (·.name)))))]

def decideUserInputRespond (sequence : SequenceRunner) (readModel : OrchestrationReadModel)
    (context : DecisionContext) (commandId : CommandId) (threadId : ThreadId)
    (respond : UserInputRespond) : Decision (List PlannedOrchestrationEvent) := do
  let type := "thread.user-input.respond"
  let _ ← requireThread readModel type threadId
  let questions ← attachableQuestions context.userInputActivity respond
  match context.userInputActivity.filter (·.byMessage) with
  | some request =>
    let asked ← expect (if request.kind = "user-input.requested"
        then decodeUserInputRequestedPayload request.payload else none)
      (.invariant type "This question has already been answered.")
    let replies ← expect (asked.mapM (questionReply respond))
      (.invariant type "Answer each question before sending.")
    sequence (asyncAnswer threadId request respond replies)
  | none =>
    let response := threadEvent commandId threadId respond.createdAt
      (.userInputResponseRequested respond.requestId respond.createdAt)
      { requestId := some respond.requestId }
    if (respond.attachmentsByQuestionId.getD []).all fun entry ↦ entry.2.isEmpty then
      return [response]
    else
      let history ← decideActivityAppend readModel commandId threadId
        (answerSubmitted commandId context.userInputActivity respond questions) respond.createdAt
      return history ++ [response]

/-- The resolution of an async question that is dropped. -/
def userInputDismissal (requestId : ApprovalRequestId) (request : OrchestrationThreadActivity)
    (createdAt : IsoDateTime) : OrchestrationThreadActivity where
  id := s!"async-dismiss:{requestId}"
  kind := "user-input.resolved"
  summary := "User input dismissed"
  tone := .info
  turnId := request.turnId
  createdAt
  payload := .obj [("requestId", .str requestId), ("responseMode", .str "message")]

/-- Only async questions can be dropped silently. -/
def decideUserInputDismiss (readModel : OrchestrationReadModel) (context : DecisionContext)
    (commandId : CommandId) (threadId : ThreadId) (requestId : ApprovalRequestId)
    (createdAt : IsoDateTime) : Decision (List PlannedOrchestrationEvent) := do
  let type := "thread.user-input.dismiss"
  let _ ← requireThread readModel type threadId
  let request ← expect (context.userInputActivity.filter (·.kind = "user-input.requested"))
    (.invariant type "This question has already been answered.")
  ensure (request.byMessage = true) (.invariant type
    "This question needs an answer. Answer it or stop the turn.")
  return [threadEvent commandId threadId createdAt
    (.activityAppended (userInputDismissal requestId request createdAt))]

/-! ## All commands -/

/-- Create a thread: its project must exist, and no live thread may have its id. -/
def decideThreadCreate (readModel : OrchestrationReadModel) (commandId : CommandId)
    (threadId : ThreadId) (create : ThreadCreate) : Decision (List PlannedOrchestrationEvent) := do
  let _ ← requireProject readModel "thread.create" create.projectId
  requireThreadAbsent readModel "thread.create" threadId
  return [threadEvent commandId threadId create.createdAt (.created {
    projectId := create.projectId
    title := create.title
    modelSelection := create.modelSelection
    runtimeMode := create.runtimeMode
    interactionMode := create.interactionMode
    branch := create.branch
    worktreePath := create.worktreePath
    createdAt := create.createdAt
    updatedAt := create.createdAt }) { historyImport := create.historyImport }]

/-- A command that asks nothing but that its thread exists, and plans one event. -/
def decidePlain (readModel : OrchestrationReadModel) (commandId : CommandId) (threadId : ThreadId)
    (type : String) (occurredAt : IsoDateTime) (payload : ThreadEventPayload)
    (metadata : OrchestrationEventMetadata := {}) : Decision (List PlannedOrchestrationEvent) := do
  let _ ← requireThread readModel type threadId
  return [threadEvent commandId threadId occurredAt payload metadata]

/-- The commands of a thread, given a runner for sequences. -/
def decideThreadCommand (sequence : SequenceRunner) (readModel : OrchestrationReadModel)
    (context : DecisionContext) (commandId : CommandId) (threadId : ThreadId)
    (command : ThreadCommand) : Decision (List PlannedOrchestrationEvent) :=
  let plain := fun occurredAt payload ↦
    decidePlain readModel commandId threadId command.type occurredAt payload
  match command with
  | .create create => decideThreadCreate readModel commandId threadId create
  | .delete => plain context.now (.deleted context.now)
  | .archive => do
    let _ ← requireThreadNotArchived readModel "thread.archive" threadId
    return [threadEvent commandId threadId context.now (.archived context.now context.now)]
  | .unarchive => do
    let _ ← requireThreadArchived readModel "thread.unarchive" threadId
    return [threadEvent commandId threadId context.now (.unarchived context.now)]
  | .settle => decideSettle js readModel context commandId threadId "thread.settle" none
  | .autoSettle _ settledAt =>
    decideSettle js readModel context commandId threadId "thread.auto-settle" (some settledAt)
  | .unsettle => decideUnsettle readModel context commandId threadId
  | .snooze snoozedUntil => decideSnooze js readModel context commandId threadId snoozedUntil
  | .unsnooze => decideUnsnooze readModel context commandId threadId
  | .pin orderKey => decidePin readModel context commandId threadId orderKey
  | .unpin => decideUnpin readModel context commandId threadId
  | .pinReorder orderKey => decidePinReorder readModel context commandId threadId orderKey
  | .activeReorder orderKey => decideActiveReorder readModel context commandId threadId orderKey
  | .metaUpdate update =>
    decideMetaUpdate js sequence readModel context commandId threadId update
  | .pullRequestLink key url source =>
    decidePullRequestLink js readModel context commandId threadId key url source
  | .pullRequestUnlink key => decidePullRequestUnlink js readModel context commandId threadId key
  | .pullRequestLinkSync key snapshot stack =>
    decidePullRequestLinkSync js readModel context commandId threadId key snapshot stack
  | .pullRequestSync sync => decidePullRequestSync readModel context commandId threadId sync
  | .titleGenerateComplete expectedTitle expectedVersion title needsRefinement =>
    decideTitleGenerateComplete readModel context commandId threadId expectedTitle
      expectedVersion title needsRefinement
  | .titleRefine expectedVersion =>
    decideTitleRefine readModel context commandId threadId expectedVersion
  | .titleRegenerationComplete requestId title =>
    decideTitleRegenerationComplete readModel context commandId threadId requestId title
  | .runtimeModeSet runtimeMode => plain context.now (.runtimeModeSet runtimeMode context.now)
  | .interactionModeSet interactionMode =>
    plain context.now (.interactionModeSet interactionMode context.now)
  | .turnStart start => decideTurnStart readModel commandId threadId start
  | .messageUserAppend message createdAt =>
    decideMessageUserAppend readModel commandId threadId message createdAt
  | .turnInterrupt turnId createdAt =>
    plain createdAt (.turnInterruptRequested turnId createdAt)
  | .approvalRespond requestId decision createdAt =>
    decidePlain readModel commandId threadId "thread.approval.respond" createdAt
      (.approvalResponseRequested requestId decision createdAt) { requestId := some requestId }
  | .userInputRespond respond =>
    decideUserInputRespond sequence readModel context commandId threadId respond
  | .userInputDismiss requestId createdAt =>
    decideUserInputDismiss readModel context commandId threadId requestId createdAt
  | .checkpointRevert turnCount createdAt =>
    plain createdAt (.checkpointRevertRequested turnCount none createdAt)
  | .conversationRevert turnCount createdAt =>
    plain createdAt (.checkpointRevertRequested turnCount (some false) createdAt)
  | .sessionStop createdAt onlyIfSettled =>
    decideSessionStop js readModel commandId threadId createdAt onlyIfSettled
  | .sessionSet session createdAt =>
    decideSessionSet readModel commandId threadId session createdAt
  | .messageAssistantDelta messageId delta turnId createdAt =>
    decideMessageAssistant readModel commandId threadId command.type messageId delta turnId true
      createdAt
  | .messageAssistantComplete messageId turnId createdAt =>
    decideMessageAssistant readModel commandId threadId command.type messageId "" turnId false
      createdAt
  | .historyImport messages => decideHistoryImport js readModel commandId threadId messages
  | .proposedPlanUpsert proposedPlan createdAt =>
    plain createdAt (.proposedPlanUpserted proposedPlan)
  | .turnDiffComplete checkpoint createdAt => plain createdAt (.turnDiffCompleted checkpoint)
  | .revertComplete turnCount createdAt => plain createdAt (.reverted turnCount)
  | .activityAppend activity createdAt =>
    decideActivityAppend readModel commandId threadId activity createdAt

/-- The switch over all commands, given a runner for sequences. -/
def decideWith (sequence : SequenceRunner) (readModel : OrchestrationReadModel)
    (context : DecisionContext) (commandId : CommandId) :
    OrchestrationCommandBody → Decision (List PlannedOrchestrationEvent)
  | .project projectId command =>
    decideProjectCommand js sequence readModel context commandId projectId command
  | .thread threadId command =>
    decideThreadCommand js sequence readModel context commandId threadId command

/-- A command that is not carried out as a sequence. -/
def decideSimpleCommand (readModel : OrchestrationReadModel) (now : IsoDateTime)
    (commandId : CommandId) : OrchestrationCommandBody →
    Decision (List PlannedOrchestrationEvent) :=
  decideWith js (fun _ ↦ .ok []) readModel { now } commandId

/-- Planned events folded into the read model, numbered on from its sequence. -/
def projectPlanned (readModel : OrchestrationReadModel) (events : List PlannedOrchestrationEvent) :
    OrchestrationReadModel :=
  events.foldl (fun model event ↦
    projectEvent js model { event with sequence := model.snapshotSequence + 1 }) readModel

/-- Decide commands one after the other, each against the read model after the events before it.
The clock is read once for each command: `clock i` is what the `i`-th reading shows. -/
def decideCommandSequence (commandId : CommandId) :
    (clock : ℕ → IsoDateTime) → OrchestrationReadModel → SequenceRunner
  | _, _, [] => .ok []
  | clock, readModel, command :: commands => do
    let events ← decideSimpleCommand js readModel (clock 0) commandId command
    let rest ← decideCommandSequence commandId (fun i ↦ clock (i + 1))
      (projectPlanned js readModel events) commands
    return events ++ rest

/-- **The decider**: the events that a command leads to, or why it is rejected. -/
def decideOrchestrationCommand (readModel : OrchestrationReadModel) (clock : ℕ → IsoDateTime)
    (userInputActivity : Option OrchestrationThreadActivity) (command : OrchestrationCommand) :
    Decision (List PlannedOrchestrationEvent) :=
  decideWith js (decideCommandSequence js command.commandId clock readModel) readModel
    { now := clock 0, userInputActivity } command.commandId command.body

end Awen.Orchestration
