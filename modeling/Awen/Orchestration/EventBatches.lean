import Awen.Orchestration.EventDelivery

/-!
# The event store keeps one batch for each command

The store numbers its events without gaps, and it is made up of batches: what one command has
stored, at once with the receipt that keeps the command from being stored again. `StoredOnce` holds
after every history of envelopes, whatever fails on the way.
-/

namespace Awen.Orchestration

variable {js : JsRuntime} {engine : Engine} {envelope : CommandEnvelope}

/-- The events of one command. -/
structure CommandBatch where
  commandId : CommandId
  events : List OrchestrationEvent

/-- The receipt of a command points to the last event of its batch. -/
def CommandBatch.HasReceipt (batch : CommandBatch)
    (receipts : OrderedMap CommandId OrchestrationCommandReceipt) : Prop :=
  ∃ receipt, receipts.get batch.commandId = some receipt ∧ receipt.status = .accepted ∧
    batch.events.getLast?.map (·.sequence) = some receipt.resultSequence

/-- **Commands are stored at most once**, each in one batch. -/
structure StoredOnce (engine : Engine) (batches : List CommandBatch) : Prop where
  events_eq : engine.events = batches.flatMap (·.events)
  nodup : (batches.map (·.commandId)).Nodup
  own : ∀ batch ∈ batches, ∀ event ∈ batch.events, event.commandId = batch.commandId
  receipt : ∀ batch ∈ batches, batch.HasReceipt engine.receipts
  /-- The sequences are `1`, `2` and so on. -/
  consecutive : engine.events.map (·.sequence) = List.range' 1 engine.events.length

/-- Planned events carry the id of their command. -/
theorem commandId_of_decide {model : OrchestrationReadModel} {dispatch : Dispatch}
    {planned : List PlannedOrchestrationEvent}
    (h : (commandModel js).decide model dispatch = .ok planned) :
    ∀ event ∈ planned, event.commandId = dispatch.command.commandId := by
  obtain ⟨⟨commandId, body⟩, clock, activity, identity⟩ := dispatch
  intro event hevent
  cases body with
  | thread threadId command => exact (planned_of_decide h event hevent).commandId
  | project projectId command =>
    obtain ⟨_, payload, -, rfl⟩ | ⟨deletions, now, rfl, hdeletions, -⟩ := decide_project_eq_ok h
    · rw [List.mem_singleton.mp hevent]
      rfl
    · rcases List.mem_append.mp hevent with hevent | hevent
      · obtain ⟨threadId, payload, rfl⟩ := hdeletions event hevent
        rfl
      · rw [List.mem_singleton.mp hevent]
        rfl

/-- What the store makes of planned events: it numbers them and leaves their command ids. -/
theorem saveEvents_spec (last : ℕ) (planned : List PlannedOrchestrationEvent) :
    (saveEvents last planned).map (·.sequence) =
        List.range' (last + 1) (saveEvents last planned).length ∧
      (saveEvents last planned).map (·.commandId) = planned.map (·.commandId) := by
  induction planned generalizing last with
  | nil => exact ⟨rfl, rfl⟩
  | cons event planned ih =>
    simp only [saveEvents, List.map_cons, ih, List.length_cons, List.range'_succ, and_self]

theorem StoredOnce.lastSequence_eq {batches : List CommandBatch} (h : StoredOnce engine batches) :
    lastSequence engine.events = engine.events.length := by
  have hconsecutive := h.consecutive
  generalize engine.events = events at hconsecutive ⊢
  cases events using List.reverseRecOn with
  | nil => rfl
  | append_singleton events event =>
    rw [List.map_append, List.length_append, List.length_singleton, List.range'_concat]
      at hconsecutive
    have hlast : event.sequence = 1 + 1 * events.length :=
      List.singleton_inj.mp (List.append_inj' hconsecutive rfl).2
    rw [lastSequence, lastFrom_concat, hlast, List.length_append, List.length_singleton]
    omega

/-- **An envelope adds at most one batch**, and none if its command has one. -/
theorem StoredOnce.processEnvelope {batches : List CommandBatch} (h : StoredOnce engine batches) :
    ∃ batches', StoredOnce (processEnvelope js engine envelope).1 batches' := by
  have hreceipt : ∀ batch ∈ batches,
      batch.HasReceipt (Orchestration.processEnvelope js engine envelope).1.receipts :=
    fun batch hbatch ↦ (h.receipt batch hbatch).imp fun _ hget ↦
      ⟨get_receipts_processEnvelope hget.1, hget.2⟩
  have hdispatched := @dispatched_dispatch js engine envelope
  rw [Orchestration.processEnvelope] at hreceipt ⊢
  generalize dispatch js engine envelope = exit at hdispatched hreceipt ⊢
  cases hdispatched with
  | answered receipt _ =>
    rw [handleExit_answer]
    exact ⟨batches, h⟩
  | refused unstored error hunstored _ _ =>
    have hevents : unstored.events = engine.events := by rcases hunstored with rfl | rfl <;> rfl
    exact ⟨batches, by rw [events_handleExit, hevents]; exact h.events_eq, h.nodup, h.own, hreceipt,
      by rw [events_handleExit, hevents]; exact h.consecutive⟩
  | stored planned event hdecided lastSavedEvent hlast hget =>
    obtain ⟨hsequences, hids⟩ := saveEvents_spec (lastSequence engine.events) (planned ++ [event])
    set committed := saveEvents (lastSequence engine.events) (planned ++ [event])
    have hown : ∀ e ∈ committed, e.commandId = envelope.command.commandId := by
      intro e he
      have hmem := hids ▸ List.mem_map_of_mem he
      obtain ⟨p, hp, heq⟩ := List.mem_map.mp hmem
      exact heq ▸ commandId_of_decide hdecided p hp
    refine ⟨batches ++ [⟨envelope.command.commandId, committed⟩], ?_, ?_, ?_, ?_, ?_⟩
    · rw [events_handleExit, events_deliver, List.flatMap_append, ← h.events_eq]
      simp [Engine.store, Engine.prepare]
    · rw [List.map_append, List.nodup_append]
      refine ⟨h.nodup, List.nodup_singleton _, fun commandId hmem id hid ↦ ?_⟩
      -- a command with a batch has a receipt, and is not stored again
      obtain ⟨batch, hbatch, rfl⟩ := List.mem_map.mp hmem
      rw [List.mem_singleton.mp hid]
      intro heq
      obtain ⟨receipt, hsome, -⟩ := h.receipt batch hbatch
      rw [heq, hget] at hsome
      cases hsome
    · exact List.forall_mem_append.mpr ⟨h.own, List.forall_mem_singleton.mpr hown⟩
    · refine List.forall_mem_append.mpr ⟨hreceipt, List.forall_mem_singleton.mpr ?_⟩
      refine ⟨acceptedReceipt envelope.command.commandId lastSavedEvent, ?_, rfl, ?_⟩
      · rw [receipts_handleExit_deliver, Engine.store, OrderedMap.get_set_self]
      · rw [hlast]
        rfl
    · rw [events_handleExit, events_deliver]
      change (engine.events ++ committed).map (·.sequence) =
        List.range' 1 (engine.events ++ committed).length
      rw [List.map_append, h.consecutive, hsequences, h.lastSequence_eq, List.length_append,
        ← List.range'_append_1, Nat.add_comm 1]

/-- **After every history of envelopes, with failures anywhere, each command is stored at most
once.** -/
theorem storedOnce_after (nowIso : IsoDateTime) (history : List CommandEnvelope) :
    ∃ batches, StoredOnce ((Engine.start nowIso).after js history) batches :=
  foldl_invariant (P := fun engine ↦ ∃ batches, StoredOnce engine batches)
    (fun _ _ h ↦ h.elim fun _ ↦ StoredOnce.processEnvelope)
    ⟨[], rfl, List.nodup_nil, by simp, by simp, rfl⟩ history

end Awen.Orchestration
