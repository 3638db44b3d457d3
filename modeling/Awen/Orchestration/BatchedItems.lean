import Awen.Orchestration.ClientThreads
import Awen.Shared.PlainRuntime

/-!
# Batches and single items

`ThreadMachine.applyItems` folds a batch before it publishes. The machine that takes the same items
one by one publishes after each of them, and this file shows where it ends: `stepped` is that
machine, written down from what the batch has folded, and `stepped_applyItem` says that a further
item and a further fold agree. Publishing the batch then differs in one respect only. A settled
thread is queued for the cache under the sequence of the whole batch, where single items queue it
under the sequence of the event that made it, and later events that leave the thread as it is do
not queue it again.
-/

namespace Awen.Orchestration

namespace ThreadMachine

/-! ## The machine beside a batch -/

/-- The snapshot that a thread is queued as, at a sequence. -/
def snapshotAt (m : ThreadMachine) (thread : OrchestrationThread) (sequence : ℕ) :
    OrchestrationThreadDetailSnapshot where
  snapshotSequence := sequence
  thread := thread
  page := m.state.page.map fun page ↦
    { beforeCursor := page.beforeCursor, hasMore := page.hasMore, snapshotSequence := sequence }

/-- The status after the items of a batch. -/
def statusAfter (m : ThreadMachine) (batch : Batch) : EnvironmentThreadStatus :=
  if batch.updated then
    if m.state.error.isSome then .cached
    else if m.awaitingCompletion && !batch.synchronized then .synchronizing
    else .live
  else if batch.synchronized ∧ m.state.status ≠ .deleted ∧ m.state.error.isNone then .live
  else m.state.status

/-- **The machine that has taken the items of a batch one by one.** -/
def stepped (m : ThreadMachine) (batch : Batch) : ThreadMachine :=
  { m with
    state := { m.state with data := some batch.thread, status := m.statusAfter batch }
    lastSequence := batch.sequence
    awaitingCompletion := m.awaitingCompletion && !batch.synchronized
    persistence := match batch.persistable with
      | some (thread, sequence) => some (m.snapshotAt thread sequence)
      | none => m.persistence }

@[simp] theorem stepped_data (m : ThreadMachine) (batch : Batch) :
    (m.stepped batch).state.data = some batch.thread := rfl

@[simp] theorem stepped_pendingOlderPage (m : ThreadMachine) (batch : Batch) :
    (m.stepped batch).pendingOlderPage = m.pendingOlderPage := rfl

@[simp] theorem setThread_pendingOlderPage (m : ThreadMachine) (thread : OrchestrationThread)
    (page : Option (Option EnvironmentThreadPageState)) :
    (m.setThread thread page).pendingOlderPage = m.pendingOlderPage := by
  simp only [setThread, offerThreadPersistence]
  split <;> rfl

/-- Before any item a batch holds the thread that is shown. -/
theorem stepped_start {m : ThreadMachine} {thread : OrchestrationThread}
    (hdata : m.state.data = some thread) :
    m.stepped { thread, sequence := m.lastSequence } = m := by
  obtain ⟨⟨data, status, error, page⟩, lastSequence, awaiting, epoch, parked, persistence⟩ := m
  obtain rfl : data = some thread := hdata
  simp [stepped, statusAfter]

variable (js : JsRuntime)

private theorem stepped_synchronized (m : ThreadMachine) (batch : Batch) :
    (m.stepped batch).applyItem js .synchronized = m.stepped (batch.add js .synchronized) := by
  obtain ⟨⟨data, status, error, page⟩, lastSequence, awaiting, epoch, parked, persistence⟩ := m
  obtain ⟨thread, sequence, synchronized, updated, persistable⟩ := batch
  -- whether the machine is live now is decided by these four
  cases error <;> cases updated <;> cases synchronized <;> by_cases hdeleted : status = .deleted <;>
    cases awaiting <;> simp [applyItem, stepped, statusAfter, Batch.add, snapshotAt, hdeleted]

private theorem stepped_setThread (m : ThreadMachine) (batch : Batch)
    (thread : OrchestrationThread) (sequence : ℕ) :
    setThread { m.stepped batch with lastSequence := sequence } thread none =
      m.stepped { batch with
        thread
        sequence
        updated := true
        persistable := if shouldPersistThread thread then some (thread, sequence)
          else batch.persistable } := by
  simp only [setThread, stepped, statusAfter, if_true, Option.getD_none]
  by_cases hpersist : shouldPersistThread thread = true
  · simp only [hpersist, if_true, offerThreadPersistence, snapshotAt]
    rfl
  · simp only [hpersist, Bool.false_eq_true, if_false]
    rfl

private theorem stepped_event {m : ThreadMachine} (hparked : m.pendingOlderPage = none)
    (batch : Batch) {event : OrchestrationEvent} (hrevert : event.revertsThread = false)
    (hdelete : event.deletesThread = false) :
    (m.stepped batch).applyItem js (.event event) = m.stepped (batch.add js (.event event)) := by
  have hstays (m' : ThreadMachine) (h : m'.pendingOlderPage = none) :
      m'.tryMergePendingOlderPage = m' := by rw [tryMergePendingOlderPage, h]
  by_cases hseen : event.sequence ≤ batch.sequence
  · rw [applyItem, if_pos (show event.sequence ≤ (m.stepped batch).lastSequence from hseen)]
    rw [Batch.add, if_pos hseen]
  · rw [applyItem, if_neg (show ¬event.sequence ≤ (m.stepped batch).lastSequence from hseen)]
    simp only [Batch.add, if_neg hseen, applyEvent, hrevert, Bool.false_eq_true, if_false,
      stepped_data]
    cases hresult : applyThreadDetailEvent js batch.thread event with
    | deleted =>
      rw [(applyThreadDetailEvent_eq_deleted_iff js).mp hresult] at hdelete
      exact absurd hdelete (by decide)
    | unchanged => exact hstays _ hparked
    | updated thread =>
      rw [← stepped_setThread]
      refine hstays _ ?_
      simpa using hparked

/-- **One more item.** -/
theorem stepped_applyItem {m : ThreadMachine} (hparked : m.pendingOlderPage = none) (batch : Batch)
    {item : OrchestrationThreadStreamItem} (hitem : rewritesHistory item = false) :
    (m.stepped batch).applyItem js item = m.stepped (batch.add js item) := by
  cases item with
  | synchronized => exact stepped_synchronized js m batch
  | snapshot => exact absurd hitem (by simp [rewritesHistory])
  | event event =>
    obtain ⟨hrevert, hdelete⟩ := Bool.or_eq_false_iff.mp hitem
    exact stepped_event js hparked batch hrevert hdelete

/-- **The items of a batch, one by one.** -/
theorem stepped_applyEach {m : ThreadMachine} (hparked : m.pendingOlderPage = none)
    (items : List OrchestrationThreadStreamItem) (batch : Batch)
    (hitems : items.any rewritesHistory = false) :
    (m.stepped batch).applyEach js items = m.stepped (items.foldl (Batch.add js) batch) := by
  induction items generalizing batch with
  | nil => rfl
  | cons item items ih =>
    simp only [List.any_cons, Bool.or_eq_false_iff] at hitems
    calc (m.stepped batch).applyEach js (item :: items)
        = ((m.stepped batch).applyItem js item).applyEach js items := rfl
      _ = (m.stepped (batch.add js item)).applyEach js items := by
        rw [stepped_applyItem js hparked batch hitems.1]
      _ = m.stepped ((item :: items).foldl (Batch.add js) batch) := ih _ hitems.2

/-! ## What a batch has folded -/

/-- **What holds of a batch of a machine.** Without an update it has the thread it started with; a
settled thread that it made is persistable, with the sequence it was made at. -/
structure BatchOf (m : ThreadMachine) (batch : Batch) : Prop where
  unchanged : batch.updated = false →
    m.state.data = some batch.thread ∧ batch.persistable = none
  settled : batch.updated = true → shouldPersistThread batch.thread = true →
    ∃ sequence ≤ batch.sequence, batch.persistable = some (batch.thread, sequence)

theorem BatchOf.add {m : ThreadMachine} {batch : Batch} (h : BatchOf m batch)
    (item : OrchestrationThreadStreamItem) : BatchOf m (batch.add js item) := by
  cases item with
  | synchronized => exact ⟨h.unchanged, h.settled⟩
  | snapshot => exact h
  | event event =>
    by_cases hseen : event.sequence ≤ batch.sequence
    · rw [Batch.add, if_pos hseen]
      exact h
    have hlater : ∀ sequence ≤ batch.sequence, sequence ≤ event.sequence :=
      fun sequence hle ↦ hle.trans (not_le.mp hseen).le
    simp only [Batch.add, if_neg hseen]
    split
    · refine ⟨fun hupdated ↦ absurd hupdated (by simp), fun _ hpersist ↦ ?_⟩
      exact ⟨event.sequence, le_rfl, if_pos hpersist⟩
    · refine ⟨h.unchanged, fun hupdated hpersist ↦ ?_⟩
      obtain ⟨sequence, hle, hpersistable⟩ := h.settled hupdated hpersist
      exact ⟨sequence, hlater sequence hle, hpersistable⟩

theorem BatchOf.foldl {m : ThreadMachine} {batch : Batch} (h : BatchOf m batch)
    (items : List OrchestrationThreadStreamItem) :
    BatchOf m (items.foldl (Batch.add js) batch) := by
  induction items generalizing batch with
  | nil => exact h
  | cons item items ih => exact ih (h.add js item)

end ThreadMachine

/-- A queued snapshot, under another sequence. -/
def OrchestrationThreadDetailSnapshot.resumedAt (snapshot : OrchestrationThreadDetailSnapshot)
    (sequence : ℕ) : OrchestrationThreadDetailSnapshot :=
  { snapshot with
    snapshotSequence := sequence
    page := snapshot.page.map ({ · with snapshotSequence := sequence }) }

namespace ThreadMachine

/-- **Two machines that have taken the same items.** They agree in everything but the snapshot that
waits for the cache. If these differ, then the second has it under an earlier sequence, and both
show the thread of that snapshot still. -/
structure AgreesWith (m m' : ThreadMachine) : Prop where
  state : m.state = m'.state
  lastSequence : m.lastSequence = m'.lastSequence
  awaitingCompletion : m.awaitingCompletion = m'.awaitingCompletion
  historyEpoch : m.historyEpoch = m'.historyEpoch
  pendingOlderPage : m.pendingOlderPage = m'.pendingOlderPage
  persistence : m.persistence = m'.persistence ∨ ∃ snapshot, m'.persistence = some snapshot ∧
    m.persistence = some (snapshot.resumedAt m.lastSequence) ∧
    snapshot.snapshotSequence < m.lastSequence ∧ m'.state.data = some snapshot.thread

theorem AgreesWith.refl (m : ThreadMachine) : m.AgreesWith m :=
  ⟨rfl, rfl, rfl, rfl, rfl, .inl rfl⟩

variable (js : JsRuntime)

/-- A batch without an update publishes what single items leave. -/
theorem publish_of_unchanged {m : ThreadMachine} {batch : Batch} (hupdated : batch.updated = false)
    (hdata : m.state.data = some batch.thread) (hpersistable : batch.persistable = none) :
    m.publish js batch = m.stepped batch := by
  obtain ⟨⟨data, status, error, page⟩, lastSequence, awaiting, epoch, parked, persistence⟩ := m
  obtain ⟨thread, sequence, synchronized, updated, persistable⟩ := batch
  obtain rfl : updated = false := hupdated
  obtain rfl : data = some thread := hdata
  obtain rfl : persistable = none := hpersistable
  cases synchronized
  · simp [publish, stepped, statusAfter]
  · cases error <;> by_cases hdeleted : status = .deleted <;>
      simp [publish, stepped, statusAfter, applyItem, hdeleted]

/-- The snapshot that waits for the cache once a batch with an update is published. -/
def publishedPersistence (m : ThreadMachine) (batch : Batch) :
    Option OrchestrationThreadDetailSnapshot :=
  if shouldPersistThread batch.thread then some (m.snapshotAt batch.thread batch.sequence)
  else (m.stepped batch).persistence

/-- A batch with an update publishes what single items leave, up to the snapshot for the cache. -/
theorem publish_of_updated {m : ThreadMachine} {batch : Batch} (hupdated : batch.updated = true) :
    m.publish js batch = { m.stepped batch with persistence := m.publishedPersistence batch } := by
  obtain ⟨⟨data, status, error, page⟩, lastSequence, awaiting, epoch, parked, persistence⟩ := m
  obtain ⟨thread, sequence, synchronized, updated, persistable⟩ := batch
  obtain rfl : updated = true := hupdated
  cases synchronized <;> cases error <;> cases awaiting <;> cases persistable <;>
    by_cases hpersist : shouldPersistThread thread = true <;>
    simp [publish, stepped, statusAfter, applyItem, setThread, offerThreadPersistence, snapshotAt,
      publishedPersistence, hpersist]

theorem publish_agreesWith {m : ThreadMachine} {batch : Batch} (h : BatchOf m batch) :
    (m.publish js batch).AgreesWith (m.stepped batch) := by
  cases hupdated : batch.updated with
  | false =>
    obtain ⟨hdata, hpersistable⟩ := h.unchanged hupdated
    rw [publish_of_unchanged js hupdated hdata hpersistable]
    exact .refl _
  | true =>
    rw [publish_of_updated js hupdated]
    refine ⟨rfl, rfl, rfl, rfl, rfl, ?_⟩
    by_cases hpersist : shouldPersistThread batch.thread = true
    · obtain ⟨sequence, hle, hpersistable⟩ := h.settled hupdated hpersist
      have hbatch : m.publishedPersistence batch =
          some (m.snapshotAt batch.thread batch.sequence) := if_pos hpersist
      have hsingle : (m.stepped batch).persistence = some (m.snapshotAt batch.thread sequence) := by
        simp only [stepped, hpersistable]
      rcases hle.eq_or_lt with rfl | hlt
      · exact .inl (hbatch.trans hsingle.symm)
      · -- the events after the last update were folded, but queued nothing
        refine .inr ⟨_, hsingle, hbatch.trans ?_, hlt, rfl⟩
        simp [snapshotAt, OrchestrationThreadDetailSnapshot.resumedAt, stepped, Function.comp_def]
    · exact .inl (if_neg hpersist)

/-- **A batch does what its items do one by one.** -/
theorem applyItems_agreesWith (m : ThreadMachine) (items : List OrchestrationThreadStreamItem) :
    (m.applyItems js items).AgreesWith (m.applyEach js items) := by
  cases hdata : m.state.data with
  | none => rw [applyItems, hdata]; exact .refl _
  | some thread =>
    cases hparked : m.pendingOlderPage with
    | some => rw [applyItems, hdata, hparked]; exact .refl _
    | none =>
      by_cases hitems : items.any rewritesHistory = true
      · simp only [applyItems, hdata, hparked, if_pos hitems]
        exact .refl _
      · simp only [applyItems, hdata, hparked, if_neg hitems]
        have hstart : BatchOf m { thread, sequence := m.lastSequence } :=
          ⟨fun _ ↦ ⟨hdata, rfl⟩, fun hupdated ↦ absurd hupdated (by simp)⟩
        have hstepped := stepped_applyEach js hparked items { thread, sequence := m.lastSequence }
          (Bool.not_eq_true _ ▸ hitems)
        rw [stepped_start hdata] at hstepped
        rw [hstepped]
        exact publish_agreesWith js (hstart.foldl js items)

/-! ### The snapshot that differs -/

/-- A client that shows a thread without a session. -/
def idleMachine : ThreadMachine where
  state := {
    data := some (createdThread "thread" {
      projectId := "project", title := "Thread", modelSelection := .null, runtimeMode := .auto
      interactionMode := .default, branch := none, worktreePath := none
      createdAt := "2026-03-01T12:00:00.000Z", updatedAt := "2026-03-01T12:00:00.000Z" })
    status := .live
    error := none
    page := none }
  lastSequence := 4

/-- An event of the thread that `idleMachine` shows. -/
def threadItem (sequence : ℕ) (payload : ThreadEventPayload) : OrchestrationThreadStreamItem :=
  .event {
    sequence
    aggregateKind := .thread
    aggregateId := "thread"
    occurredAt := "2026-03-01T12:00:00.000Z"
    commandId := "command"
    payload := .thread "thread" payload }

/-- Two events, of which the second leaves the thread as it is. -/
def pinAndRespond : List OrchestrationThreadStreamItem :=
  [threadItem 5 (.pinned "2026-03-01T12:00:00.000Z" none "2026-03-01T12:00:00.000Z"),
    threadItem 6 (.approvalResponseRequested "request" .accept "2026-03-01T12:00:00.000Z")]

/-- The batch queues the pinned thread under the sequence of the response, the single items queue
it under the sequence of the pin. -/
theorem applyItems_persistence_ne_applyEach :
    (idleMachine.applyItems plainRuntime pinAndRespond).persistence ≠
      (idleMachine.applyEach plainRuntime pinAndRespond).persistence := by
  intro h
  have hsequence := congrArg (Option.map (·.snapshotSequence)) h
  exact absurd hsequence (by decide)

end ThreadMachine

end Awen.Orchestration
