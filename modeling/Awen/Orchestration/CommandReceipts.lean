import Awen.Orchestration.Engine
import Awen.Orchestration.ThreadRuns

/-!
# Receipts make dispatch idempotent

A command that is sent again finds the receipt of the first time. `Accepts` says that an envelope
stores events. Its receipt then names the aggregate of the command, because the last event of every
plan does (`aggregateRef_of_decide`), and no later envelope changes it
(`get_receipts_processEnvelope`). A rejection leaves a receipt too, where it can be written:
`rejectedUnrecorded` is a run in which it cannot, and the command is accepted the second time.
-/

namespace Awen.Orchestration

variable {js : JsRuntime} {engine : Engine} {envelope : CommandEnvelope}

/-! ## The last event of a plan -/

theorem saveEvents_concat (last : ℕ) (planned : List PlannedOrchestrationEvent)
    (event : PlannedOrchestrationEvent) :
    saveEvents last (planned ++ [event]) =
      saveEvents last planned ++ [{ event with sequence := last + planned.length + 1 }] := by
  induction planned generalizing last with
  | nil => rfl
  | cons e planned ih =>
    simp only [List.cons_append, saveEvents, ih, List.length_cons]
    rw [show last + 1 + planned.length + 1 = last + (planned.length + 1) + 1 by omega]

/-- **The last event of a plan is about the aggregate of its command.** -/
theorem aggregateRef_of_decide {readModel : OrchestrationReadModel} {clock : ℕ → IsoDateTime}
    {userInputActivity : Option OrchestrationThreadActivity} {command : OrchestrationCommand}
    {planned : List PlannedOrchestrationEvent} {event : PlannedOrchestrationEvent}
    (h : decideOrchestrationCommand js readModel clock userInputActivity command =
      .ok (planned ++ [event])) :
    (event.aggregateKind, event.aggregateId) = commandToAggregateRef command := by
  obtain ⟨commandId, body⟩ := command
  cases body with
  | thread threadId command =>
    have hevent := planned_of_decide h event (List.mem_append_right _ List.mem_cons_self)
    rw [hevent.aggregateKind, hevent.aggregateId, commandToAggregateRef]
  | project projectId command =>
    obtain ⟨_, payload, -, hplanned⟩ | ⟨deletions, now, hplanned, -, -⟩ := decide_project_eq_ok h
    · rw [← List.nil_append [projectPlannedEvent ..]] at hplanned
      obtain rfl := (List.append_singleton_inj.mp hplanned).2
      rfl
    · obtain rfl := (List.append_singleton_inj.mp hplanned).2
      rfl

/-! ## What an envelope does to the store -/

/-- Errors that do not come from a receipt. -/
private def NotFromReceipt {α : Type} (result : Except OrchestrationDispatchError α) : Prop :=
  ∀ error, result = .error error → error.fromReceipt = false

private theorem notFromReceipt_checkEvents : NotFromReceipt (checkEvents engine envelope) := by
  intro error h
  simp only [checkEvents, CommandEnvelope.reach] at h
  repeat' split at h
  all_goals cases h <;> rfl

private theorem notFromReceipt_planEvents {model : OrchestrationReadModel} :
    NotFromReceipt (planEvents js model envelope) := by
  intro error h
  simp only [planEvents, CommandEnvelope.reach] at h
  cases hdecided : (commandModel js).decide model envelope.toDispatch <;>
    simp only [hdecided, Except.mapError] at h <;> (repeat' split at h)
  all_goals cases h <;> rfl

theorem planEvents_eq_ok {model : OrchestrationReadModel}
    {planned : List PlannedOrchestrationEvent} (h : planEvents js model envelope = .ok planned) :
    (commandModel js).decide model envelope.toDispatch = .ok planned := by
  simp only [planEvents, CommandEnvelope.reach] at h
  cases hdecided : (commandModel js).decide model envelope.toDispatch <;>
    simp only [hdecided, Except.mapError] at h <;> (repeat' split at h)
  all_goals cases h <;> rfl

/-- What becomes of an envelope up to its answer: a receipt answers it, or it is refused and nothing
is stored, or its events are stored. -/
inductive Dispatched (js : JsRuntime) (engine : Engine) (envelope : CommandEnvelope) :
    Engine × Except OrchestrationDispatchError ℕ → Prop
  | answered (receipt : OrchestrationCommandReceipt)
      (hget : engine.receipts.get envelope.command.commandId = some receipt) :
      Dispatched js engine envelope (engine, receipt.answer envelope.command)
  | refused (unstored : Engine) (error : OrchestrationDispatchError)
      (hunstored : unstored = engine ∨ unstored = engine.prepare js envelope)
      (herror : error.fromReceipt = false)
      (hget : error = .failure ∨ engine.receipts.get envelope.command.commandId = none) :
      Dispatched js engine envelope (unstored, .error error)
  | stored (planned : List PlannedOrchestrationEvent) (event : PlannedOrchestrationEvent)
      (hdecided : (commandModel js).decide (engine.prepare js envelope).commandReadModel
        envelope.toDispatch = .ok (planned ++ [event])) (lastSavedEvent : OrchestrationEvent)
      (hlast : (saveEvents (lastSequence engine.events) (planned ++ [event])).getLast? =
        some lastSavedEvent)
      (hget : engine.receipts.get envelope.command.commandId = none) :
      Dispatched js engine envelope (deliver js ((engine.prepare js envelope).store
        envelope.command.commandId (saveEvents (lastSequence engine.events) (planned ++ [event]))
        lastSavedEvent) envelope (saveEvents (lastSequence engine.events) (planned ++ [event]))
        lastSavedEvent)

private theorem dispatched_dispatchNew
    (hget : engine.receipts.get envelope.command.commandId = none) :
    Dispatched js engine envelope (dispatchNew js engine envelope) := by
  rw [dispatchNew]
  split
  · rename_i error herror
    refine .refused _ error (.inl rfl) ?_ (.inr hget)
    cases hchecked : checkEvents engine envelope with
    | error e =>
      rw [hchecked] at herror
      cases herror
      exact notFromReceipt_checkEvents _ hchecked
    | ok _ =>
      rw [hchecked] at herror
      simp only [bind, Except.bind, CommandEnvelope.reach] at herror
      split at herror <;> cases herror
      rfl
  · dsimp only
    split
    · rename_i error herror
      exact .refused _ error (.inr rfl) (notFromReceipt_planEvents _ herror) (.inr hget)
    · rename_i planned hplanned
      rw [commit]
      split
      · exact .refused _ _ (.inr rfl) rfl (.inr hget)
      · dsimp only
        split
        · exact .refused _ _ (.inr rfl) rfl (.inr hget)
        · rename_i lastSavedEvent hlast
          cases planned using List.reverseRecOn with
          | nil => cases hlast
          | append_singleton planned event =>
            exact .stored planned event (planEvents_eq_ok hplanned) lastSavedEvent hlast hget

/-- **An envelope is answered, refused or stored.** -/
theorem dispatched_dispatch : Dispatched js engine envelope (dispatch js engine envelope) := by
  rw [dispatch]
  split
  · exact .refused _ _ (.inl rfl) rfl (.inl rfl)
  · split
    · rename_i receipt hget
      exact .answered receipt hget
    · rename_i hget
      exact dispatched_dispatchNew hget

section Store

variable {stored : Engine} {committed : List OrchestrationEvent}
  {lastSavedEvent : OrchestrationEvent} {start : ℕ} {reconciliation : Reconciliation}
  {error : OrchestrationDispatchError} {exit : Engine × Except OrchestrationDispatchError ℕ}

@[simp] theorem events_deliver :
    (deliver js stored envelope committed lastSavedEvent).1.events = stored.events := by
  rw [deliver]
  repeat' split
  all_goals rfl

@[simp] theorem receipts_deliver :
    (deliver js stored envelope committed lastSavedEvent).1.receipts = stored.receipts := by
  rw [deliver]
  repeat' split
  all_goals rfl

/-- Once the events are stored, the command is not rejected any more. -/
theorem error_deliver
    (h : (deliver js stored envelope committed lastSavedEvent).2 = .error error) :
    error = .failure := by
  rw [deliver] at h
  repeat' split at h
  all_goals cases h <;> rfl

@[simp] theorem events_reconcile :
    (reconcileReadModelAfterDispatchFailure js start reconciliation engine).events =
      engine.events := by
  cases reconciliation <;> rfl

@[simp] theorem receipts_reconcile :
    (reconcileReadModelAfterDispatchFailure js start reconciliation engine).receipts =
      engine.receipts := by
  cases reconciliation <;> rfl

@[simp] theorem events_recordRejection :
    (recordRejection envelope error engine).events = engine.events := by
  cases error <;> simp only [recordRejection]
  split <;> rfl

@[simp] theorem recordRejection_failure : recordRejection envelope .failure engine = engine := rfl

/-- Only the receipt of the command itself is written. -/
theorem get_receipts_recordRejection {commandId : CommandId}
    (h : commandId ≠ envelope.command.commandId) :
    (recordRejection envelope error engine).receipts.get commandId =
      engine.receipts.get commandId := by
  cases error <;> simp only [recordRejection]
  split
  · exact OrderedMap.get_set_of_ne h
  · rfl

@[simp] theorem events_handleExit :
    (handleExit js start envelope exit).1.events = exit.1.events := by
  rw [handleExit]
  repeat' split
  all_goals simp

@[simp] theorem error_handleExit : (handleExit js start envelope exit).2 = exit.2 := by
  rw [handleExit]
  split
  · rfl
  · rename_i h
    split
    · rfl
    · exact h.symm

theorem receipts_handleExit_deliver :
    (handleExit js start envelope
      (deliver js stored envelope committed lastSavedEvent)).1.receipts = stored.receipts := by
  rw [handleExit]
  split
  · exact receipts_deliver
  · rename_i error herror
    rw [error_deliver herror]
    simp [OrchestrationDispatchError.fromReceipt]

theorem get_receipts_handleExit {commandId : CommandId}
    (h : commandId ≠ envelope.command.commandId ∨ exit.2 = .error .failure) :
    (handleExit js start envelope exit).1.receipts.get commandId =
      exit.1.receipts.get commandId := by
  rw [handleExit]
  split
  · rfl
  · rename_i error herror
    split
    · rfl
    · obtain h | h := h
      · rw [get_receipts_recordRejection h, receipts_reconcile]
      · obtain rfl := Except.error.inj (herror.symm.trans h)
        rw [recordRejection_failure, receipts_reconcile]

end Store

/-! ## Receipts stay -/

section Receipts

variable {receipt : OrchestrationCommandReceipt} {commandId : CommandId}

/-- The answer of a receipt ends the processing. -/
@[simp] theorem handleExit_answer {start : ℕ} {command : OrchestrationCommand} :
    handleExit js start envelope (engine, receipt.answer command) =
      (engine, receipt.answer command) := by
  rw [handleExit]
  split
  · rfl
  · rename_i error herror
    rw [if_pos]
    dsimp only at herror
    rw [OrchestrationCommandReceipt.answer] at herror
    repeat' split at herror
    all_goals cases herror <;> rfl

/-- An envelope whose command has a receipt gets its answer, and nothing else happens. -/
theorem processEnvelope_of_receipt (hlookup : envelope.fault ≠ some .receiptLookup)
    (hget : engine.receipts.get envelope.command.commandId = some receipt) :
    processEnvelope js engine envelope = (engine, receipt.answer envelope.command) := by
  rw [processEnvelope, dispatch, if_neg hlookup, hget]
  exact handleExit_answer

/-- **A receipt stays as it is.** -/
theorem get_receipts_processEnvelope (hget : engine.receipts.get commandId = some receipt) :
    (processEnvelope js engine envelope).1.receipts.get commandId = some receipt := by
  have hne : engine.receipts.get envelope.command.commandId = none →
      commandId ≠ envelope.command.commandId := by
    rintro hnone rfl
    rw [hnone] at hget
    cases hget
  have hdispatched := @dispatched_dispatch js engine envelope
  rw [processEnvelope]
  generalize dispatch js engine envelope = exit at hdispatched ⊢
  cases hdispatched with
  | answered receipt' _ => rw [handleExit_answer, hget]
  | refused unstored error hunstored _ hnone =>
    rw [get_receipts_handleExit (hnone.symm.imp hne (congrArg Except.error))]
    rcases hunstored with rfl | rfl <;> exact hget
  | stored planned event _ lastSavedEvent _ hnone =>
    rw [get_receipts_handleExit (.inl (hne hnone)), receipts_deliver]
    exact (OrderedMap.get_set_of_ne (hne hnone)).trans hget

theorem get_receipts_after (hget : engine.receipts.get commandId = some receipt)
    (history : List CommandEnvelope) :
    (engine.after js history).receipts.get commandId = some receipt :=
  foldl_invariant (P := fun engine : Engine ↦ engine.receipts.get commandId = some receipt)
    (fun _ _ ↦ get_receipts_processEnvelope) hget history

end Receipts

/-! ## The receipts of accepted and of rejected commands -/

/-- An envelope whose events are stored. -/
def Accepts (js : JsRuntime) (engine : Engine) (envelope : CommandEnvelope) : Prop :=
  (processEnvelope js engine envelope).1.events ≠ engine.events

/-- **The receipt of an accepted command** names the aggregate of the command and the sequence of
its last event. -/
theorem exists_receipt_of_accepts (h : Accepts js engine envelope) :
    ∃ receipt, (processEnvelope js engine envelope).1.receipts.get envelope.command.commandId =
        some receipt ∧ receipt.status = .accepted ∧
      receipt.resultSequence = lastSequence (processEnvelope js engine envelope).1.events ∧
      (receipt.aggregateKind, receipt.aggregateId) = commandToAggregateRef envelope.command := by
  have hdispatched := @dispatched_dispatch js engine envelope
  rw [Accepts] at h
  rw [processEnvelope] at h ⊢
  rw [events_handleExit] at h ⊢
  generalize dispatch js engine envelope = exit at hdispatched h ⊢
  cases hdispatched with
  | answered receipt _ => exact absurd rfl h
  | refused unstored error hunstored => rcases hunstored with rfl | rfl <;> exact absurd rfl h
  | stored planned event hdecided lastSavedEvent hlast _ =>
    refine ⟨acceptedReceipt envelope.command.commandId lastSavedEvent, ?_, rfl, ?_, ?_⟩
    · rw [receipts_handleExit_deliver, Engine.store, OrderedMap.get_set_self]
    · rw [events_deliver, Engine.store]
      rw [saveEvents_concat, List.getLast?_concat, Option.some_inj] at hlast
      rw [saveEvents_concat, ← List.append_assoc, lastSequence, lastFrom_concat, ← hlast]
      rfl
    · rw [saveEvents_concat, List.getLast?_concat, Option.some_inj] at hlast
      rw [← hlast]
      exact aggregateRef_of_decide hdecided

/-- **The receipt of a rejected command**, where it can be written. -/
theorem get_receipts_of_rejection {rejection : OrchestrationCommandRejection}
    (h : (processEnvelope js engine envelope).2 = .error (.rejection rejection))
    (hwrites : envelope.writesRejection = true)
    (hreconciles : envelope.reconciliation.isInterrupted = false) :
    ∃ receipt, (processEnvelope js engine envelope).1.receipts.get envelope.command.commandId =
        some receipt ∧ receipt.status = .rejected ∧ receipt.error = some rejection.message ∧
      (receipt.aggregateKind, receipt.aggregateId) = commandToAggregateRef envelope.command := by
  rw [processEnvelope, error_handleExit] at h
  rw [processEnvelope, handleExit, h]
  simp only [OrchestrationDispatchError.fromReceipt, Bool.false_eq_true, if_false, recordRejection,
    hwrites, hreconciles, Bool.not_false, and_self, if_true, OrderedMap.get_set_self]
  exact ⟨_, rfl, rfl, rfl, rfl⟩

/-- The answer to a command for the aggregate that the receipt names. -/
theorem answer_of_aggregateRef {receipt : OrchestrationCommandReceipt}
    {command : OrchestrationCommand}
    (h : (receipt.aggregateKind, receipt.aggregateId) = commandToAggregateRef command) :
    receipt.answer command = match receipt.status with
      | .accepted => .ok receipt.resultSequence
      | .rejected => .error (.previouslyRejected command.commandId
          (receipt.error.getD "Previously rejected.")) := by
  rw [OrchestrationCommandReceipt.answer, ← h]
  exact if_neg (by simp)

/-! ## Sending a command again -/

/-- **Dispatch is idempotent.** However the surroundings treated the history of a command and what
came after it: a command that was accepted is answered with the sequence recorded for it when it is
sent again, and one whose rejection could be recorded is rejected again; the engine stays as it is.
The receipt of an accepted command names the aggregate that the command is about. -/
theorem dispatch_again (nowIso : IsoDateTime) (history later : List CommandEnvelope)
    (envelope again : CommandEnvelope) (hsame : again.command = envelope.command)
    (hlookup : again.fault ≠ some .receiptLookup) :
    let before := (Engine.start nowIso).after js history
    let handled := processEnvelope js before envelope
    let now := handled.1.after js later
    (Accepts js before envelope →
      processEnvelope js now again = (now, .ok (lastSequence handled.1.events)) ∧
      ∃ receipt, handled.1.receipts.get envelope.command.commandId = some receipt ∧
        receipt.status = .accepted ∧
        (receipt.aggregateKind, receipt.aggregateId) = commandToAggregateRef envelope.command) ∧
    ∀ rejection, handled.2 = .error (.rejection rejection) → envelope.writesRejection = true →
      envelope.reconciliation.isInterrupted = false →
      processEnvelope js now again =
        (now, .error (.previouslyRejected envelope.command.commandId rejection.message)) := by
  intro before handled now
  refine ⟨fun haccepts ↦ ?_, fun rejection hrejected hwrites hreconciles ↦ ?_⟩
  · obtain ⟨receipt, hget, hstatus, hsequence, haggregate⟩ := exists_receipt_of_accepts haccepts
    refine ⟨?_, receipt, hget, hstatus, haggregate⟩
    rw [← hsame] at hget haggregate
    rw [processEnvelope_of_receipt hlookup (get_receipts_after hget later),
      answer_of_aggregateRef haggregate, hstatus, hsequence]
  · obtain ⟨receipt, hget, hstatus, herror, haggregate⟩ :=
      get_receipts_of_rejection hrejected hwrites hreconciles
    rw [← hsame] at hget haggregate
    rw [processEnvelope_of_receipt hlookup (get_receipts_after hget later),
      answer_of_aggregateRef haggregate, hstatus, herror, hsame]
    rfl

/-! ## Runs -/

/-- A command on its way, with nothing in its way. -/
def envelopeAt (now : IsoDateTime) (commandId : CommandId) (body : OrchestrationCommandBody) :
    CommandEnvelope where
  toDispatch := dispatchAt now commandId body

/-- Create a project and a thread in it, in an engine. -/
def projectAndThreadEnvelopes : List CommandEnvelope :=
  createProjectAndThread.map fun dispatch ↦ { toDispatch := dispatch }

def forcedDelete : CommandEnvelope :=
  envelopeAt "2026-03-01T12:00:02.000Z" "c3" (.project "p" (.delete true))

/-- The forced deletion plans the deletion of the thread and that of the project. -/
theorem dispatch_again_forcedDelete :
    let now := (processEnvelope plainRuntime ((Engine.start "2026-03-01T12:00:00.000Z").after
      plainRuntime projectAndThreadEnvelopes) forcedDelete).1
    processEnvelope plainRuntime now forcedDelete = (now, .ok 4) := by
  have h := @dispatch_again plainRuntime "2026-03-01T12:00:00.000Z"
    projectAndThreadEnvelopes [] forcedDelete forcedDelete rfl (by decide)
  refine (h.1 fun hevents ↦ ?_).1.trans ?_
  · have hlength := congrArg List.length hevents
    revert hlength
    decide
  · exact congrArg _ (congrArg Except.ok (by decide))

/-- The thread is created before its project, and the rejection cannot be recorded. -/
def rejectedUnrecorded : CommandEnvelope :=
  { toDispatch := createProjectAndThread.getLast (by decide), writesRejection := false }

/-- A rejection that is not recorded is forgotten. -/
theorem not_rejected_again : ¬ ∀ (history later : List CommandEnvelope)
    (envelope again : CommandEnvelope) (rejection : OrchestrationCommandRejection),
    again.command = envelope.command → again.fault ≠ some .receiptLookup →
    (processEnvelope plainRuntime ((Engine.start "2026-03-01T12:00:00.000Z").after plainRuntime
      history) envelope).2 = .error (.rejection rejection) →
    ∃ error, (processEnvelope plainRuntime ((processEnvelope plainRuntime
      ((Engine.start "2026-03-01T12:00:00.000Z").after plainRuntime history) envelope).1.after
        plainRuntime later) again).2 = .error error := by
  intro h
  obtain ⟨error, herror⟩ := h [] [projectAndThreadEnvelopes.head (by decide)] rejectedUnrecorded
    rejectedUnrecorded (.invariant "thread.create"
      "Project 'p' does not exist for command 'thread.create'.") rfl (by decide) (by decide)
  have haccepted : (processEnvelope plainRuntime ((processEnvelope plainRuntime
      ((Engine.start "2026-03-01T12:00:00.000Z").after plainRuntime []) rejectedUnrecorded).1.after
        plainRuntime [projectAndThreadEnvelopes.head (by decide)]) rejectedUnrecorded).2 =
      .ok 2 := by decide
  rw [haccepted] at herror
  cases herror

end Awen.Orchestration
