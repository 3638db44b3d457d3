import Awen.Orchestration.Contracts

/-!
# The lifecycle of a provider session

The ingestion of provider events keeps the session of a thread: its status, its active turn and its
last error. `processRuntimeEvent` is the part of the source function of that name that decides what
the session becomes, with the strict guard on. The start of a turn is asked for by the server: the
request stores a pending turn start, and the session becomes `starting`.
-/

namespace Awen.Orchestration

/-! ## State -/

/-- What the lifecycle reads and writes of a session. -/
structure SessionState where
  status : OrchestrationSessionStatus
  activeTurnId : Option TurnId
  lastError : Option String
  deriving DecidableEq, Repr

/-- The turn start that the server asked for last. -/
structure PendingTurnStart where
  messageId : MessageId
  /-- Its message is the `/compact` command. -/
  compacts : Bool
  deriving DecidableEq, Repr

/-- The session of a thread and its pending turn start. -/
structure SessionLifecycle where
  session : Option SessionState := none
  pendingTurnStart : Option PendingTurnStart := none
  deriving DecidableEq, Repr

namespace SessionLifecycle

variable (thread : SessionLifecycle)

/-- `thread.session?.status`. -/
def status : Option OrchestrationSessionStatus := thread.session.map (·.status)

/-- `thread.session?.activeTurnId ?? null`. -/
def activeTurnId : Option TurnId := thread.session.bind (·.activeTurnId)

/-- `thread.session?.lastError ?? null`. -/
def lastError : Option String := thread.session.bind (·.lastError)

end SessionLifecycle

/-! ## Events -/

inductive RuntimeSessionState
  | starting
  | running
  | waiting
  | ready
  | interrupted
  | stopped
  | error
  deriving DecidableEq, Repr

/-- The events of a provider, with what the lifecycle reads of their payloads. -/
inductive RuntimeEventKind
  | sessionStarted
  | threadStarted
  | sessionStateChanged (state : RuntimeSessionState) (reason : Option String)
  | sessionExited
  | turnStarted
  | turnCompleted (state : Option String) (errorMessage : Option String)
  | turnAborted
  | runtimeError (message : String)
  | other
  deriving DecidableEq, Repr

/-- An event of the provider of a thread; it may name a turn. -/
structure ProviderRuntimeEvent where
  kind : RuntimeEventKind
  turnId : Option TurnId
  deriving DecidableEq, Repr

inductive RuntimeTurnState
  | completed
  | failed
  | interrupted
  | cancelled
  deriving DecidableEq, Repr

def normalizeRuntimeTurnState (value : Option String) : RuntimeTurnState :=
  if value = some "failed" then .failed
  else if value = some "interrupted" then .interrupted
  else if value = some "cancelled" then .cancelled
  else .completed

def orchestrationSessionStatusFromRuntimeState : RuntimeSessionState → OrchestrationSessionStatus
  | .starting => .starting
  | .running | .waiting => .running
  | .ready => .ready
  | .interrupted => .interrupted
  | .stopped => .stopped
  | .error => .error

def sessionStatusAllowsActiveTurn (status : OrchestrationSessionStatus) : Bool :=
  status = .starting || status = .running

/-- Equal ids; an id that is not there equals none. -/
def sameId (left right : Option String) : Bool := left.isSome && left = right

/-! ## What an event does to the session -/

section ProcessRuntimeEvent

variable (thread : SessionLifecycle) (event : ProviderRuntimeEvent)
  (expectedProviderTurnId : Option TurnId)

def hasPendingTurnStart : Bool :=
  thread.pendingTurnStart.isSome && thread.status = some .starting

def conflictsWithActiveTurn : Bool :=
  thread.activeTurnId.isSome && event.turnId.isSome && !sameId thread.activeTurnId event.turnId

def missingTurnForActiveTurn : Bool := thread.activeTurnId.isSome && event.turnId.isNone

/-- The server has a start pending, and the provider already tracks the turn of the event: some
providers open a new turn without completing the one that was steered. -/
def conflictingTurnStartIsPendingTurnStart : Bool :=
  conflictsWithActiveTurn thread event && sameId expectedProviderTurnId event.turnId &&
    thread.pendingTurnStart.isSome

def shouldApplyThreadLifecycle : Bool :=
  match event.kind with
  | .turnStarted =>
    !conflictsWithActiveTurn thread event ||
      conflictingTurnStartIsPendingTurnStart thread event expectedProviderTurnId
  | .turnCompleted .. | .turnAborted =>
    if conflictsWithActiveTurn thread event || missingTurnForActiveTurn thread event then false
    else if thread.activeTurnId.isSome && event.turnId.isSome then
      sameId thread.activeTurnId event.turnId
    -- a named completion can recover a lost start; an abort needs an active turn
    else event.kind ≠ .turnAborted && event.turnId.isSome
  | _ => true

/-- The status after an event of the lifecycle; `none` for every other event. -/
def lifecycleStatus : Option OrchestrationSessionStatus :=
  match event.kind with
  | .sessionStateChanged state _ =>
    let runtimeStatus := orchestrationSessionStatusFromRuntimeState state
    some (if hasPendingTurnStart thread && runtimeStatus = .ready then .starting else runtimeStatus)
  | .turnStarted => some .running
  | .sessionExited => some .stopped
  | .turnAborted => some .interrupted
  | .turnCompleted state _ =>
    match normalizeRuntimeTurnState state with
    | .failed => some .error
    | .interrupted | .cancelled => some .interrupted
    | .completed => some .ready
  | .sessionStarted | .threadStarted =>
    some (if thread.activeTurnId.isSome then .running
      else if hasPendingTurnStart thread then .starting else .ready)
  | .runtimeError _ | .other => none

def nextActiveTurnId : Option TurnId :=
  match event.kind with
  | .turnStarted => event.turnId
  | .turnCompleted .. | .turnAborted | .sessionExited => none
  | .sessionStateChanged state _ =>
    if sessionStatusAllowsActiveTurn (orchestrationSessionStatusFromRuntimeState state) then
      thread.activeTurnId else none
  | _ => thread.activeTurnId

def nextLastError (status : OrchestrationSessionStatus) : Option String :=
  let kept := if status = .ready ∨ status = .interrupted then none else thread.lastError
  match event.kind with
  | .sessionStateChanged .error reason =>
    some ((reason.or thread.lastError).getD "Provider session error")
  | .turnCompleted state errorMessage =>
    if normalizeRuntimeTurnState state = .failed then
      some ((errorMessage.or thread.lastError).getD "Turn failed")
    else kept
  | _ => kept

/-- A runtime error is about the active turn, about no turn, or there is no active turn. -/
def shouldApplyRuntimeError : Bool :=
  thread.activeTurnId.isNone || event.turnId.isNone || sameId thread.activeTurnId event.turnId

/-- The session that an event sets, if it sets one. -/
def sessionSetBy : Option SessionState :=
  match event.kind with
  | .runtimeError message =>
    if shouldApplyRuntimeError thread event then
      some { status := .error, activeTurnId := event.turnId, lastError := some message }
    else none
  | _ =>
    if shouldApplyThreadLifecycle thread event expectedProviderTurnId then
      (lifecycleStatus thread event).map fun status ↦
        { status
          activeTurnId := nextActiveTurnId thread event
          lastError := nextLastError thread event status }
    else none

end ProcessRuntimeEvent

/-- The projection of `thread.session-set`: the session is stored, and the pending turn start goes
when the session runs a turn or ends. A session that is ready ends it only if the server says so. -/
def applySessionSet (thread : SessionLifecycle) (session : SessionState) (fromServer : Bool) :
    SessionLifecycle where
  session := some session
  pendingTurnStart :=
    if session.activeTurnId.isNone || session.status ≠ .running then
      if session.status = .ready && fromServer || session.status = .error ||
          session.status = .stopped || session.status = .interrupted then none
      else thread.pendingTurnStart
    else none

def processRuntimeEvent (thread : SessionLifecycle) (event : ProviderRuntimeEvent)
    (expectedProviderTurnId : Option TurnId) : SessionLifecycle :=
  match sessionSetBy thread event expectedProviderTurnId with
  | some session => applySessionSet thread session false
  | none => thread

/-! ## Runs -/

/-- What happens to the lifecycle of a thread. -/
inductive LifecycleStep
  /-- `thread.turn-start-requested`. -/
  | turnStartRequested (messageId : MessageId) (compacts : Bool)
  /-- The server sets the session, with no active turn: `starting` for a turn start, or another
  status when the provider was started, stopped or failed. -/
  | serverSessionSet (status : OrchestrationSessionStatus) (lastError : Option String)
  /-- An activity that answers a pending start: a finished compaction or a failed start. -/
  | startAnswered (requestId : MessageId)
  /-- An event of the provider, which reports some turn as its active one. -/
  | runtime (event : ProviderRuntimeEvent) (expectedProviderTurnId : Option TurnId)

def SessionLifecycle.step (thread : SessionLifecycle) : LifecycleStep → SessionLifecycle
  | .turnStartRequested messageId compacts =>
    if thread.pendingTurnStart.any (·.compacts) then thread
    else { thread with pendingTurnStart := some ⟨messageId, compacts⟩ }
  | .serverSessionSet status lastError =>
    applySessionSet thread { status, activeTurnId := none, lastError } true
  | .startAnswered requestId =>
    if thread.pendingTurnStart.any (·.messageId = requestId) then
      { thread with pendingTurnStart := none }
    else thread
  | .runtime event expectedProviderTurnId => processRuntimeEvent thread event expectedProviderTurnId

/-- The thread after some steps, from its creation. -/
def SessionLifecycle.run (steps : List LifecycleStep) : SessionLifecycle :=
  steps.foldl SessionLifecycle.step {}

end Awen.Orchestration
