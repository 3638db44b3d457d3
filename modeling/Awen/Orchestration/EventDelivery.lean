import Awen.Orchestration.CommandReceipts

/-!
# Events reach the read model and the subscribers

`DeliveredInOrder` says that the read model is the fold of the stored events and that these were
published, each once and in order. An engine keeps it through every envelope that meets
`DeliversOnce`: refused commands, failures before the commit and, if the reconciliation gets
through, failures right after it. A failure further on breaks it, because the reconciliation goes
back to where the read model stood before the command, while the read model has moved on:
`redelivered` is a run in which an event is published twice and its text folded in twice.
-/

namespace Awen.Orchestration

variable {js : JsRuntime} {engine : Engine} {envelope : CommandEnvelope}

/-! ## Read models as folds -/

/-- The read models that events lead to, each folded once and in order. In between, projects take
over what commands among the given ones have looked up. -/
inductive FoldsTo (js : JsRuntime) (start : OrchestrationReadModel) (looked : Dispatch → Prop) :
    List OrchestrationEvent → OrchestrationReadModel → Prop
  | start : FoldsTo js start looked [] start
  | event {events : List OrchestrationEvent} {model : OrchestrationReadModel}
      (event : OrchestrationEvent) (h : FoldsTo js start looked events model) :
      FoldsTo js start looked (events ++ [event]) (projectEvent js model event)
  | lookup {events : List OrchestrationEvent} {model : OrchestrationReadModel}
      (dispatch : Dispatch) (hlooked : looked dispatch) (h : FoldsTo js start looked events model) :
      FoldsTo js start looked events (resolveRepositoryIdentity model dispatch)

section Folds

variable {start model : OrchestrationReadModel} {looked : Dispatch → Prop}
  {events : List OrchestrationEvent}

theorem FoldsTo.append (h : FoldsTo js start looked events model)
    (new : List OrchestrationEvent) :
    FoldsTo js start looked (events ++ new) (projectEventsOntoReadModel js model new) := by
  induction new generalizing events model with
  | nil =>
    rw [List.append_nil]
    exact h
  | cons event new ih =>
    rw [List.append_cons]
    exact ih (h.event event)

@[simp] theorem snapshotSequence_resolveRepositoryIdentity (model : OrchestrationReadModel)
    (dispatch : Dispatch) :
    (resolveRepositoryIdentity model dispatch).snapshotSequence = model.snapshotSequence := by
  simp only [resolveRepositoryIdentity]
  repeat' split
  all_goals rfl

/-- The read model knows the sequence of the last event. -/
theorem FoldsTo.snapshotSequence_eq (h : FoldsTo js start looked events model)
    (hstart : start.snapshotSequence = 0) : model.snapshotSequence = lastSequence events := by
  induction h with
  | start => exact hstart
  | event event _ _ => rw [lastSequence, lastFrom_concat, projectEvent]
  | lookup dispatch _ _ ih => rw [snapshotSequence_resolveRepositoryIdentity, ih]

theorem resolveRepositoryIdentity_of_none {dispatch : Dispatch}
    (h : dispatch.repositoryIdentity = none) :
    resolveRepositoryIdentity model dispatch = model := by
  simp only [resolveRepositoryIdentity, h]
  repeat' split
  all_goals first | rfl | contradiction

/-- Where no lookup finds anything, the read model is the fold of the events. -/
theorem FoldsTo.eq_of_none (h : FoldsTo js start looked events model)
    (hlooked : ∀ dispatch, looked dispatch → dispatch.repositoryIdentity = none) :
    model = projectEventsOntoReadModel js start events := by
  induction h with
  | start => rfl
  | event event _ ih => rw [ih, projectEventsOntoReadModel, projectEventsOntoReadModel,
      List.foldl_append, List.foldl_cons, List.foldl_nil]
  | lookup dispatch hdispatch _ ih =>
    rw [resolveRepositoryIdentity_of_none (hlooked dispatch hdispatch), ih]

end Folds

/-! ## The store -/

theorem ascending_saveEvents (last : ℕ) (planned : List PlannedOrchestrationEvent) :
    Ascending OrchestrationEvent.sequence last (saveEvents last planned) := by
  induction planned generalizing last with
  | nil => exact ascending_nil last
  | cons event planned ih => exact ascending_cons.mpr ⟨Nat.lt_succ_self last, ih (last + 1)⟩

theorem length_saveEvents (last : ℕ) (planned : List PlannedOrchestrationEvent) :
    (saveEvents last planned).length = planned.length := by
  induction planned generalizing last with
  | nil => rfl
  | cons event planned ih => rw [saveEvents, List.length_cons, List.length_cons, ih]

/-! ## Delivery -/

/-- **Events are delivered once and in order**: they carry rising sequences, the read model is their
fold and the subscribers have got them. -/
structure DeliveredInOrder (js : JsRuntime) (nowIso : IsoDateTime) (looked : Dispatch → Prop)
    (engine : Engine) : Prop where
  ascending : Ascending OrchestrationEvent.sequence 0 engine.events
  folds : FoldsTo js (createEmptyReadModel nowIso) looked engine.events engine.commandReadModel
  published : engine.published = engine.events

/-- The reconciliation publishes that many events. -/
def Reconciliation.Publishes (count : ℕ) : Reconciliation → Prop
  | .completes => True
  | .fails => False
  | .interrupted published => count ≤ published

/-- What an envelope's fault must leave in place, if the command comes to be stored. A failure
between the commit and the advance of the read model is made good by a reconciliation that gets
through and reads all the events; later, the reconciliation must find nothing to do, or nothing at
all. -/
def DeliversOnce (js : JsRuntime) (engine : Engine) (envelope : CommandEnvelope) : Prop :=
  engine.receipts.get envelope.command.commandId = none →
  ∀ planned, (commandModel js).decide (engine.prepare js envelope).commandReadModel
      envelope.toDispatch = .ok planned →
    match envelope.fault with
    | some .committed => envelope.reconciliation.Publishes planned.length ∧
        planned.length ≤ defaultReadFromSequenceLimit
    | some (.delivery published) => planned.length ≤ published ∧ envelope.reconciliation = .fails
    | _ => True

section Steps

variable {nowIso : IsoDateTime} {looked : Dispatch → Prop}

theorem DeliveredInOrder.snapshotSequence_eq (h : DeliveredInOrder js nowIso looked engine) :
    engine.commandReadModel.snapshotSequence = lastSequence engine.events :=
  h.folds.snapshotSequence_eq rfl

theorem DeliveredInOrder.prepare (h : DeliveredInOrder js nowIso looked engine)
    (hlooked : looked envelope.toDispatch) :
    DeliveredInOrder js nowIso looked (engine.prepare js envelope) where
  ascending := h.ascending
  folds := h.folds.lookup _ hlooked
  published := h.published

/-- The store has nothing after its last event. -/
private theorem readFromSequence_last {events new : List OrchestrationEvent}
    (h : Ascending OrchestrationEvent.sequence 0 (events ++ new))
    (hcount : new.length ≤ defaultReadFromSequenceLimit) :
    readFromSequence (events ++ new) (lastSequence events) = new := by
  rw [readFromSequence, lastSequence, readAfter_append h, List.take_of_length_le hcount]

/-- With nothing to read, the failure path leaves the delivery as it is. -/
private theorem DeliveredInOrder.refused (h : DeliveredInOrder js nowIso looked engine)
    {error : OrchestrationDispatchError} :
    DeliveredInOrder js nowIso looked (recordRejection envelope error
      (reconcileReadModelAfterDispatchFailure js (lastSequence engine.events)
        envelope.reconciliation engine)) := by
  have hnothing : readFromSequence engine.events (lastSequence engine.events) = [] := by
    have hread := @readFromSequence_last engine.events [] (by simpa using h.ascending)
      (Nat.zero_le _)
    rwa [List.append_nil] at hread
  have hreconciled : reconcileReadModelAfterDispatchFailure js (lastSequence engine.events)
      envelope.reconciliation engine = engine := by
    rw [reconcileReadModelAfterDispatchFailure.eq_def, hnothing]
    cases envelope.reconciliation <;> simp [projectEventsOntoReadModel]
  rw [hreconciled]
  cases error <;> simp only [recordRejection]
  case rejection rejection =>
    split
    · exact ⟨h.ascending, h.folds, h.published⟩
    · exact h
  all_goals exact h

/-- Without a fault after the commit the events are delivered. -/
private theorem deliver_of_ne {stored : Engine} {committed : List OrchestrationEvent}
    (hcommitted : envelope.fault ≠ some .committed)
    (hdelivery : ∀ published, envelope.fault ≠ some (.delivery published))
    (lastSavedEvent : OrchestrationEvent) :
    deliver js stored envelope committed lastSavedEvent =
      ({ stored with
          commandReadModel := projectEventsOntoReadModel js stored.commandReadModel committed
          published := stored.published ++ committed }, .ok lastSavedEvent.sequence) := by
  rw [deliver]
  split
  · exact absurd ‹_› hcommitted
  · exact absurd ‹_› (hdelivery _)
  · rfl

/-- Stored events are delivered, at once or by the reconciliation. -/
private theorem DeliveredInOrder.stored (h : DeliveredInOrder js nowIso looked engine)
    {committed : List OrchestrationEvent} {lastSavedEvent : OrchestrationEvent}
    (hascending : Ascending OrchestrationEvent.sequence (lastSequence engine.events) committed)
    (hfault : match envelope.fault with
      | some .committed => envelope.reconciliation.Publishes committed.length ∧
          committed.length ≤ defaultReadFromSequenceLimit
      | some (.delivery published) =>
          committed.length ≤ published ∧ envelope.reconciliation = .fails
      | _ => True) :
    DeliveredInOrder js nowIso looked (handleExit js (lastSequence engine.events) envelope
      (deliver js (engine.store envelope.command.commandId committed lastSavedEvent) envelope
        committed lastSavedEvent)).1 := by
  have hall : Ascending OrchestrationEvent.sequence 0 (engine.events ++ committed) :=
    ascending_append.mpr ⟨h.ascending, hascending⟩
  have hfolds := h.folds.append committed
  have hpublished : engine.published ++ committed = engine.events ++ committed := by
    rw [h.published]
  split at hfault <;> rename_i heq
  · -- the reconciliation finds what was stored, and does what is left to do
    obtain ⟨hpublishes, hcount⟩ := hfault
    simp only [deliver, heq, handleExit, OrchestrationDispatchError.fromReceipt,
      Bool.false_eq_true, if_false,
      recordRejection_failure, reconcileReadModelAfterDispatchFailure, Engine.store,
      readFromSequence_last hall hcount]
    cases hreconciliation : envelope.reconciliation with
    | completes => exact ⟨hall, hfolds, hpublished⟩
    | fails =>
      rw [hreconciliation] at hpublishes
      exact hpublishes.elim
    | interrupted published =>
      rw [hreconciliation] at hpublishes
      dsimp only
      rw [List.take_of_length_le hpublishes]
      exact ⟨hall, hfolds, hpublished⟩
  · -- everything is published already, and the store is not read again
    obtain ⟨hcount, hfails⟩ := hfault
    simp only [deliver, heq, handleExit, OrchestrationDispatchError.fromReceipt,
      Bool.false_eq_true, if_false,
      recordRejection_failure, reconcileReadModelAfterDispatchFailure, Engine.store, hfails]
    rw [List.take_of_length_le hcount]
    exact ⟨hall, hfolds, hpublished⟩
  · rename_i hcommitted
    rw [deliver_of_ne hcommitted heq]
    exact ⟨hall, hfolds, hpublished⟩

/-- **An envelope keeps the delivery.** -/
theorem DeliveredInOrder.processEnvelope (h : DeliveredInOrder js nowIso looked engine)
    (hlooked : looked envelope.toDispatch) (hok : DeliversOnce js engine envelope) :
    DeliveredInOrder js nowIso looked (processEnvelope js engine envelope).1 := by
  have hdispatched := @dispatched_dispatch js engine envelope
  rw [Orchestration.processEnvelope, h.snapshotSequence_eq]
  generalize dispatch js engine envelope = exit at hdispatched ⊢
  cases hdispatched with
  | answered receipt _ =>
    rw [handleExit_answer]
    exact h
  | refused unstored error hunstored herror _ =>
    simp only [handleExit, herror, Bool.false_eq_true, if_false]
    rcases hunstored with rfl | rfl
    · exact h.refused
    · exact (h.prepare hlooked).refused
  | stored planned event hdecided lastSavedEvent _ hget =>
    have hfault := hok hget _ hdecided
    rw [← length_saveEvents (lastSequence engine.events)] at hfault
    exact (h.prepare hlooked).stored (ascending_saveEvents _ _) hfault

end Steps

/-- **Each stored event reaches the read model and the subscribers once and in order**, in every
run whose envelopes meet `DeliversOnce`; and where no edit of a legacy link has looked up a
repository, the read model is the fold of the stored events. -/
theorem deliveredInOrder_after {nowIso : IsoDateTime} {history : List CommandEnvelope}
    (h : EveryStep (fun engine envelope ↦ (processEnvelope js engine envelope).1) (DeliversOnce js)
      (Engine.start nowIso) history) :
    DeliveredInOrder js nowIso (∃ envelope ∈ history, envelope.toDispatch = ·)
      ((Engine.start nowIso).after js history) ∧
    ((∀ envelope ∈ history, envelope.repositoryIdentity = none) →
      ((Engine.start nowIso).after js history).commandReadModel =
        projectEventsOntoReadModel js (createEmptyReadModel nowIso)
          ((Engine.start nowIso).after js history).events) := by
  have hdelivered : DeliveredInOrder js nowIso (∃ envelope ∈ history, envelope.toDispatch = ·)
      ((Engine.start nowIso).after js history) :=
    h.and_mem.foldl_invariant (fun engine envelope hengine hok ↦
      hengine.processEnvelope ⟨envelope, hok.2, rfl⟩ hok.1) ⟨ascending_nil 0, .start, rfl⟩
  refine ⟨hdelivered, fun hnone ↦ hdelivered.folds.eq_of_none ?_⟩
  rintro dispatch ⟨envelope, hmem, rfl⟩
  exact hnone envelope hmem

/-! ## A run that delivers twice -/

/-- An assistant message arrives in a thread, and the processing is interrupted once it is
published. -/
def redelivered : List CommandEnvelope := projectAndThreadEnvelopes ++
  [{ envelopeAt "2026-03-01T12:00:02.000Z" "c3" (.thread "t"
      (.messageAssistantDelta "m" "Hi" none "2026-03-01T12:00:02.000Z")) with
    fault := some (.delivery 1) }]

/-- The texts of the messages in a read model. -/
def messageTexts (model : OrchestrationReadModel) : List String :=
  model.threads.flatMap fun thread ↦ thread.messages.map (·.text)

/-- The reconciliation folds and publishes the event again. -/
theorem not_deliveredInOrder_after : ¬ ∀ history : List CommandEnvelope,
    let engine := (Engine.start "2026-03-01T12:00:00.000Z").after plainRuntime history
    engine.published = engine.events ∧
      messageTexts engine.commandReadModel = messageTexts (projectEventsOntoReadModel plainRuntime
        (createEmptyReadModel "2026-03-01T12:00:00.000Z") engine.events) := by
  intro h
  have hlength := congrArg List.length (h redelivered).1
  revert hlength
  decide

/-- The processing is interrupted as soon as the message is stored. -/
def recovered : List CommandEnvelope := projectAndThreadEnvelopes ++
  [{ envelopeAt "2026-03-01T12:00:02.000Z" "c3" (.thread "t"
      (.messageAssistantDelta "m" "Hi" none "2026-03-01T12:00:02.000Z")) with
    fault := some .committed }]

theorem deliveredInOrder_after_recovered :
    ((Engine.start "2026-03-01T12:00:00.000Z").after plainRuntime recovered).published =
      ((Engine.start "2026-03-01T12:00:00.000Z").after plainRuntime recovered).events := by
  have hdelivers : EveryStep (fun engine envelope ↦ (processEnvelope plainRuntime engine envelope).1)
      (DeliversOnce plainRuntime) (Engine.start "2026-03-01T12:00:00.000Z") recovered := by
    refine ⟨fun _ _ _ ↦ trivial, fun _ _ _ ↦ trivial, fun _ planned hplanned ↦ ⟨trivial, ?_⟩,
      trivial⟩
    have hcount := congrArg (fun result ↦ result.toOption.elim 0 List.length) hplanned
    refine Nat.le_trans (Nat.le_of_eq hcount.symm) ?_
    decide
  exact (deliveredInOrder_after hdelivers).1.published

end Awen.Orchestration
