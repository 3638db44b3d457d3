import Awen.Library.OrderedMap
import Awen.Library.Runs
import Awen.Library.SequencedLog
import Awen.Orchestration.ThreadFold

/-!
# The orchestration engine

The engine takes one command envelope after the other. It looks for a receipt of the command, plans
the events, stores them together with a receipt in one transaction, advances the read model and
publishes the events; `dispatch` is all of that. When it fails on the way, it reads the store again
from where the read model stood before the command, folds and publishes what it finds, and writes a
receipt if the command was rejected: `processEnvelope`.

What storage and the surroundings do to an envelope stands in the envelope: the answers to its
lookups, and the `Fault` that ends its processing, if one does.
-/

namespace Awen.Orchestration

variable (js : JsRuntime)

/-! ## Receipts -/

inductive OrchestrationCommandReceiptStatus
  | accepted
  | rejected
  deriving DecidableEq, Repr

/-- What is kept of a handled command. -/
structure OrchestrationCommandReceipt where
  commandId : CommandId
  aggregateKind : OrchestrationAggregateKind
  aggregateId : String
  acceptedAt : IsoDateTime
  resultSequence : ℕ
  status : OrchestrationCommandReceiptStatus
  error : Option String
  deriving DecidableEq, Repr

/-- Why a command gets no sequence. -/
inductive OrchestrationDispatchError
  | rejection (rejection : OrchestrationCommandRejection)
  | commandIdConflict (commandId : CommandId)
      (receiptAggregateKind : OrchestrationAggregateKind) (receiptAggregateId : String)
      (commandAggregateKind : OrchestrationAggregateKind) (commandAggregateId : String)
  | previouslyRejected (commandId : CommandId) (detail : String)
  /-- Storage failed, or the processing was interrupted. -/
  | failure
  deriving DecidableEq, Repr

def OrchestrationCommandRejection.message : OrchestrationCommandRejection → String
  | .invariant commandType detail =>
    s!"Orchestration command invariant failed ({commandType}): {detail}"
  | .threadSettleBlocked _ =>
    "This thread still needs attention. Resolve or interrupt it first, then try again."

/-- The aggregate that a command is about. -/
def commandToAggregateRef (command : OrchestrationCommand) :
    OrchestrationAggregateKind × String :=
  match command.body with
  | .project projectId _ => (.project, projectId)
  | .thread threadId _ => (.thread, threadId)

/-- What a receipt answers to a command with its id. It only proves that this very command was
handled, so it does not speak for a command aimed at another aggregate. -/
def OrchestrationCommandReceipt.answer (receipt : OrchestrationCommandReceipt)
    (command : OrchestrationCommand) : Except OrchestrationDispatchError ℕ :=
  let aggregateRef := commandToAggregateRef command
  if receipt.aggregateKind ≠ aggregateRef.1 ∨ receipt.aggregateId ≠ aggregateRef.2 then
    .error (.commandIdConflict command.commandId receipt.aggregateKind receipt.aggregateId
      aggregateRef.1 aggregateRef.2)
  else match receipt.status with
    | .accepted => .ok receipt.resultSequence
    | .rejected => .error (.previouslyRejected command.commandId
        (receipt.error.getD "Previously rejected."))

/-! ## Envelopes and the state of the engine -/

/-- Where the processing of an envelope fails or is interrupted from the outside. -/
inductive Fault
  | receiptLookup
  | eventCheck
  | projectLookup
  | activityLookup
  | eventIdentifier
  /-- Inside of the transaction, or on its commit: it is rolled back. -/
  | transaction
  /-- After the commit, before the read model is advanced. -/
  | committed
  /-- After the read model is advanced, with that many of the events published. -/
  | delivery (published : ℕ)
  deriving DecidableEq, Repr

/-- How the reconciliation after a failure goes. -/
inductive Reconciliation
  | completes
  /-- The store cannot be read; the failure is logged. -/
  | fails
  /-- It is interrupted with that many of the events published. -/
  | interrupted (published : ℕ)
  deriving DecidableEq, Repr

def Reconciliation.isInterrupted : Reconciliation → Bool
  | .interrupted _ => true
  | .completes | .fails => false

/-- A command on its way, with what storage and the surroundings do to it. -/
structure CommandEnvelope extends Dispatch where
  /-- The thread has live background work. -/
  hasBackgroundWork : Bool := false
  fault : Option Fault := none
  reconciliation : Reconciliation := .completes
  /-- The time at which a rejection is recorded. -/
  rejectedAt : IsoDateTime := ""
  /-- The receipt of a rejection can be written; that it could not is not reported. -/
  writesRejection : Bool := true

/-- **The engine**: its read model, the tables of events and receipts, and what its subscribers have
been sent. -/
structure Engine where
  commandReadModel : OrchestrationReadModel
  events : List OrchestrationEvent
  receipts : OrderedMap CommandId OrchestrationCommandReceipt
  published : List OrchestrationEvent

/-- The engine on an empty store. -/
def Engine.start (nowIso : IsoDateTime) : Engine where
  commandReadModel := createEmptyReadModel nowIso
  events := []
  receipts := .empty
  published := []

/-! ## The event store -/

/-- The sequence of the last event in the store, zero if it is empty. -/
def lastSequence (events : List OrchestrationEvent) : ℕ :=
  lastFrom OrchestrationEvent.sequence 0 events

/-- Planned events with the sequences that the store gives them. -/
def saveEvents : ℕ → List PlannedOrchestrationEvent → List OrchestrationEvent
  | _, [] => []
  | last, event :: events => { event with sequence := last + 1 } :: saveEvents (last + 1) events

/-- How many events a reader gets that asks for no number. -/
def defaultReadFromSequenceLimit : ℕ := 1000

def readFromSequence (events : List OrchestrationEvent) (sequenceExclusive : ℕ) :
    List OrchestrationEvent :=
  (readAfter OrchestrationEvent.sequence sequenceExclusive events).take defaultReadFromSequenceLimit

/-- The store has a later event of a thread, of a kind if one is asked for. -/
def hasThreadEventAfter (events : List OrchestrationEvent) (threadId : ThreadId)
    (sequenceExclusive : ℕ) (ofKind : OrchestrationEventPayload → Bool) : Bool :=
  (readAfter OrchestrationEvent.sequence sequenceExclusive events).any fun event ↦
    event.aggregateKind = .thread ∧ event.aggregateId = threadId ∧ ofKind event.payload

def OrchestrationEventPayload.isThreadCreated : OrchestrationEventPayload → Bool
  | .thread _ (.created _) => true
  | _ => false

def projectEventsOntoReadModel (baseReadModel : OrchestrationReadModel)
    (events : List OrchestrationEvent) : OrchestrationReadModel :=
  events.foldl (projectEvent js) baseReadModel

/-! ## Dispatch -/

/-- Go on unless the envelope's fault lies here. -/
def CommandEnvelope.reach (envelope : CommandEnvelope) (fault : Fault) :
    Except OrchestrationDispatchError Unit :=
  if envelope.fault = some fault then .error .failure else .ok ()

/-- Reject a command whose ground has changed since it was issued. -/
def checkEvents (engine : Engine) (envelope : CommandEnvelope) :
    Except OrchestrationDispatchError Unit :=
  match envelope.command.body with
  | .thread threadId (.autoSettle snapshotSequence settledAt) => do
    let type := (ThreadCommand.autoSettle snapshotSequence settledAt).type
    envelope.reach .eventCheck
    if hasThreadEventAfter engine.events threadId snapshotSequence fun _ ↦ true then
      .error (.rejection (.invariant type
        s!"thread {threadId} changed before automatic settlement"))
    if envelope.hasBackgroundWork then
      .error (.rejection (.invariant type s!"thread {threadId} has live background work"))
  | .thread threadId (.pullRequestSync sync) => do
    envelope.reach .eventCheck
    -- the decider compares the lookup inputs; only a new thread can have the same ones again
    if hasThreadEventAfter engine.events threadId sync.snapshotSequence
        OrchestrationEventPayload.isThreadCreated then
      .error (.rejection (.invariant (ThreadCommand.pullRequestSync sync).type
        s!"thread {threadId} was recreated before pull request discovery"))
  | _ => .ok ()

/-- The events that a command leads to. -/
def planEvents (model : OrchestrationReadModel) (envelope : CommandEnvelope) :
    Except OrchestrationDispatchError (List PlannedOrchestrationEvent) := do
  envelope.reach .activityLookup
  if envelope.fault = some .eventIdentifier then
    .error (.rejection (.invariant envelope.command.body.type
      "Failed to generate an event identifier."))
  ((commandModel js).decide model envelope.toDispatch).mapError .rejection

/-- The receipt of a command whose events are stored. -/
def acceptedReceipt (commandId : CommandId) (lastSavedEvent : OrchestrationEvent) :
    OrchestrationCommandReceipt where
  commandId
  aggregateKind := lastSavedEvent.aggregateKind
  aggregateId := lastSavedEvent.aggregateId
  acceptedAt := lastSavedEvent.occurredAt
  resultSequence := lastSavedEvent.sequence
  status := .accepted
  error := none

/-- Events in the store, with the receipt of their command. -/
def Engine.store (engine : Engine) (commandId : CommandId) (committed : List OrchestrationEvent)
    (lastSavedEvent : OrchestrationEvent) : Engine :=
  { engine with
    events := engine.events ++ committed
    receipts := engine.receipts.set commandId (acceptedReceipt commandId lastSavedEvent) }

/-- What happens to events that are in the store: the read model is advanced and they are
published. -/
def deliver (stored : Engine) (envelope : CommandEnvelope) (committed : List OrchestrationEvent)
    (lastSavedEvent : OrchestrationEvent) : Engine × Except OrchestrationDispatchError ℕ :=
  let advanced := { stored with
    commandReadModel := projectEventsOntoReadModel js stored.commandReadModel committed }
  match envelope.fault with
  | some .committed => (stored, .error .failure)
  | some (.delivery published) =>
    ({ advanced with published := stored.published ++ committed.take published }, .error .failure)
  | _ => ({ advanced with published := stored.published ++ committed },
      .ok lastSavedEvent.sequence)

/-- Store the events and the receipt in one transaction, and deliver the events. -/
def commit (engine : Engine) (envelope : CommandEnvelope)
    (planned : List PlannedOrchestrationEvent) :
    Engine × Except OrchestrationDispatchError ℕ :=
  if envelope.fault = some .transaction then (engine, .error .failure)
  else
    let committed := saveEvents (lastSequence engine.events) planned
    match committed.getLast? with
    | none => (engine, .error (.rejection (.invariant envelope.command.body.type
        "Command produced no events.")))
    | some lastSavedEvent =>
      deliver js (engine.store envelope.command.commandId committed lastSavedEvent)
        envelope committed
        lastSavedEvent

/-- What the project lookup finds stays in the read model, whatever becomes of the command. -/
def Engine.prepare (engine : Engine) (envelope : CommandEnvelope) : Engine :=
  { engine with
    commandReadModel := (commandModel js).prepare engine.commandReadModel envelope.toDispatch }

/-- A command that has no receipt yet. -/
def dispatchNew (engine : Engine) (envelope : CommandEnvelope) :
    Engine × Except OrchestrationDispatchError ℕ :=
  match checkEvents engine envelope >>= fun _ ↦ envelope.reach .projectLookup with
  | .error error => (engine, .error error)
  | .ok () =>
    let prepared := engine.prepare js envelope
    match planEvents js prepared.commandReadModel envelope with
    | .error error => (prepared, .error error)
    | .ok planned => commit js prepared envelope planned

/-- **A command up to the answer to its sender.** -/
def dispatch (engine : Engine) (envelope : CommandEnvelope) :
    Engine × Except OrchestrationDispatchError ℕ :=
  if envelope.fault = some .receiptLookup then (engine, .error .failure)
  else match engine.receipts.get envelope.command.commandId with
    | some receipt => (engine, receipt.answer envelope.command)
    | none => dispatchNew js engine envelope

/-! ## After a failure -/

/-- Fold and publish what the store has after a sequence. -/
def reconcileReadModelAfterDispatchFailure (dispatchStartSequence : ℕ)
    (reconciliation : Reconciliation) (engine : Engine) : Engine :=
  let persistedEvents := readFromSequence engine.events dispatchStartSequence
  let reconciled := { engine with
    commandReadModel := projectEventsOntoReadModel js engine.commandReadModel persistedEvents }
  match reconciliation with
  | .fails => engine
  | .completes => { reconciled with published := engine.published ++ persistedEvents }
  | .interrupted published =>
    { reconciled with published := engine.published ++ persistedEvents.take published }

/-- Write the receipt of a rejected command. -/
def recordRejection (envelope : CommandEnvelope) (error : OrchestrationDispatchError)
    (engine : Engine) : Engine :=
  match error with
  | .rejection rejection =>
    -- an interruption of the reconciliation ends the processing there
    if envelope.writesRejection ∧ !envelope.reconciliation.isInterrupted then
      let aggregateRef := commandToAggregateRef envelope.command
      { engine with receipts := engine.receipts.set envelope.command.commandId {
          commandId := envelope.command.commandId
          aggregateKind := aggregateRef.1
          aggregateId := aggregateRef.2
          acceptedAt := envelope.rejectedAt
          resultSequence := engine.commandReadModel.snapshotSequence
          status := .rejected
          error := some rejection.message } }
    else engine
  | _ => engine

/-- The answers of a receipt need no reconciliation. -/
def OrchestrationDispatchError.fromReceipt : OrchestrationDispatchError → Bool
  | .commandIdConflict .. | .previouslyRejected .. => true
  | .rejection _ | .failure => false

/-- What is done about the outcome of a dispatch that began at a sequence. -/
def handleExit (dispatchStartSequence : ℕ) (envelope : CommandEnvelope)
    (exit : Engine × Except OrchestrationDispatchError ℕ) :
    Engine × Except OrchestrationDispatchError ℕ :=
  match exit.2 with
  | .ok _ => exit
  | .error error =>
    if error.fromReceipt then exit
    else
      (recordRejection envelope error (reconcileReadModelAfterDispatchFailure js
        dispatchStartSequence envelope.reconciliation exit.1), .error error)

/-- **One envelope.** -/
def processEnvelope (engine : Engine) (envelope : CommandEnvelope) :
    Engine × Except OrchestrationDispatchError ℕ :=
  handleExit js engine.commandReadModel.snapshotSequence envelope (dispatch js engine envelope)

/-- The engine after a history of envelopes. -/
def Engine.after (engine : Engine) (history : List CommandEnvelope) : Engine :=
  history.foldl (fun engine envelope ↦ (processEnvelope js engine envelope).1) engine

end Awen.Orchestration
