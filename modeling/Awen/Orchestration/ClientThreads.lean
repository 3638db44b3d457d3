import Awen.Orchestration.ThreadReducer

/-!
# The thread state of a client

What a client holds of one thread while it follows the thread's stream: the state it shows, the
sequence it has caught up to, and the snapshot that waits to be written to its cache.
`ThreadMachine.applyItem` takes one item of the stream, `ThreadMachine.applyItems` a batch of them;
the batch folds its events first and publishes once. A page of older turns that was read ahead of
the live state is parked, and merged once the events up to it have come in.

Left out are the memory of a state for a later visit and the writing of the cache itself.
-/

namespace Awen.Orchestration

/-! ## Snapshots and items -/

structure OrchestrationThreadDetailPage where
  beforeCursor : Option String
  hasMore : Bool
  snapshotSequence : ℕ
  /-- The last event of this thread that the page has seen. -/
  threadSequence : Option ℕ := none

structure OrchestrationThreadDetailSnapshot where
  snapshotSequence : ℕ
  thread : OrchestrationThread
  /-- Present where the thread is a window. -/
  page : Option OrchestrationThreadDetailPage := none

/-- **What the stream of a thread carries.** -/
inductive OrchestrationThreadStreamItem
  | synchronized
  | snapshot (snapshot : OrchestrationThreadDetailSnapshot)
  | event (event : OrchestrationEvent)

/-! ## The state -/

inductive EnvironmentThreadStatus
  | empty
  | cached
  | synchronizing
  | live
  | deleted
  deriving DecidableEq, Repr

structure EnvironmentThreadPageState where
  beforeCursor : Option String
  hasMore : Bool
  loadingOlder : Bool

structure EnvironmentThreadState where
  data : Option OrchestrationThread
  status : EnvironmentThreadStatus
  error : Option String
  page : Option EnvironmentThreadPageState

/-- An older page that waits for the live state to catch up with it. -/
structure PendingOlderPage where
  snapshot : OrchestrationThreadDetailSnapshot
  epoch : ℕ

/-- **The state machine of one thread.** -/
structure ThreadMachine where
  state : EnvironmentThreadState
  lastSequence : ℕ
  awaitingCompletion : Bool := false
  /-- Counts the rewritings of the loaded history. -/
  historyEpoch : ℕ := 0
  pendingOlderPage : Option PendingOlderPage := none
  /-- The queue of snapshots to persist, which keeps the last one only. -/
  persistence : Option OrchestrationThreadDetailSnapshot := none

def pageStateFromSnapshot (page : Option OrchestrationThreadDetailPage) :
    Option EnvironmentThreadPageState :=
  page.map fun page ↦
    { beforeCursor := page.beforeCursor, hasMore := page.hasMore, loadingOlder := false }

/-- A thread is persisted once its turn has settled. -/
def shouldPersistThread (thread : OrchestrationThread) : Bool :=
  !thread.session.any fun session ↦ session.status.alive

namespace ThreadMachine

/-! ## Steps -/

/-- Queue a thread for the cache, with the boundary of its window. -/
def offerThreadPersistence (m : ThreadMachine) (thread : OrchestrationThread)
    (snapshotSequence : ℕ) : ThreadMachine :=
  { m with
    persistence := some {
      snapshotSequence
      thread
      page := m.state.page.map fun page ↦
        { beforeCursor := page.beforeCursor, hasMore := page.hasMore, snapshotSequence } } }

/-- Show a thread, on a given page or (for `none`) on the page as it is. -/
def setThread (m : ThreadMachine) (thread : OrchestrationThread)
    (page : Option (Option EnvironmentThreadPageState)) : ThreadMachine :=
  let shown := { m with
    state := {
      data := some thread
      -- values of a failed attempt can still arrive after its error
      status := if m.state.error.isSome then .cached
        else if m.awaitingCompletion then .synchronizing else .live
      error := m.state.error
      page := page.getD m.state.page } }
  if shouldPersistThread thread then shown.offerThreadPersistence thread m.lastSequence else shown

def setDeleted (m : ThreadMachine) : ThreadMachine :=
  { m with
    awaitingCompletion := false
    historyEpoch := m.historyEpoch + 1
    state := { data := none, status := .deleted, error := none, page := none } }

/-- The rows of an older page below the loaded ones, without those that are loaded. -/
def mergeBy {α β : Type*} [DecidableEq β] (key : α → β) (older loaded : List α) : List α :=
  (older.filter fun row ↦ key row ∉ loaded.map key) ++ loaded

/-- A loaded thread with the rows of an older page; everything else is as it was loaded. -/
def mergeOlderThread (older loaded : OrchestrationThread) : OrchestrationThread :=
  { loaded with
    messages := mergeBy (·.id) older.messages loaded.messages
    activities := mergeBy (·.id) older.activities loaded.activities
    proposedPlans := mergeBy (·.id) older.proposedPlans loaded.proposedPlans
    checkpoints := mergeBy (·.turnId) older.checkpoints loaded.checkpoints }

/-- Merge an older page. The wider window is persisted under the sequence of the live state. -/
def mergeOlderPage (m : ThreadMachine) (snapshot : OrchestrationThreadDetailSnapshot) :
    ThreadMachine :=
  match m.state.data with
  | none => m
  | some loaded =>
    let thread := mergeOlderThread snapshot.thread loaded
    { m with
      state := { m.state with
        data := some thread
        page := pageStateFromSnapshot snapshot.page }
      persistence := if shouldPersistThread thread then some {
          snapshotSequence := m.lastSequence
          thread
          page := snapshot.page.map ({ · with snapshotSequence := m.lastSequence }) }
        else m.persistence }

/-- Merge the parked page once the live state has caught up, or drop it if history was rewritten
in the meantime. -/
def tryMergePendingOlderPage (m : ThreadMachine) : ThreadMachine :=
  match m.pendingOlderPage with
  | none => m
  | some pending =>
    if m.historyEpoch ≠ pending.epoch then
      { m with
        pendingOlderPage := none
        state := { m.state with page := m.state.page.map ({ · with loadingOlder := false }) } }
    else if (pending.snapshot.page.bind (·.threadSequence)).any (m.lastSequence < ·) then m
    else mergeOlderPage { m with pendingOlderPage := none } pending.snapshot

variable (js : JsRuntime)

/-- Take an event that was not seen before. -/
def applyEvent (m : ThreadMachine) (event : OrchestrationEvent) : ThreadMachine :=
  let m := { m with lastSequence := event.sequence }
  match m.state.data with
  | none => if event.deletesThread then m.setDeleted else m
  | some thread =>
    -- a revert rewrites loaded history, which an older page on its way may straddle
    let m := if event.revertsThread then { m with historyEpoch := m.historyEpoch + 1 } else m
    tryMergePendingOlderPage <| match applyThreadDetailEvent js thread event with
      | .updated thread => m.setThread thread none
      | .deleted => m.setDeleted
      | .unchanged => m

/-- **One item of the stream.** -/
def applyItem (m : ThreadMachine) : OrchestrationThreadStreamItem → ThreadMachine
  | .synchronized =>
    { m with
      awaitingCompletion := false
      state := if m.state.data.isSome ∧ m.state.status ≠ .deleted ∧ m.state.error.isNone then
          { m.state with status := .live, error := none }
        else m.state }
  | .snapshot snapshot =>
    -- a snapshot replaces all that was loaded, older pages included
    setThread
      { m with
        historyEpoch := m.historyEpoch + 1
        pendingOlderPage := none
        lastSequence := snapshot.snapshotSequence }
      snapshot.thread (some (pageStateFromSnapshot snapshot.page))
  | .event event => if event.sequence ≤ m.lastSequence then m else m.applyEvent js event

/-- The items one by one. -/
def applyEach (m : ThreadMachine) (items : List OrchestrationThreadStreamItem) : ThreadMachine :=
  items.foldl (applyItem js) m

/-! ## Batches -/

/-- What a batch folds before it publishes. -/
structure Batch where
  thread : OrchestrationThread
  sequence : ℕ
  synchronized : Bool := false
  /-- Whether an event has updated the thread, which makes it another object. -/
  updated : Bool := false
  /-- The last settled thread, with the sequence of the event that made it. -/
  persistable : Option (OrchestrationThread × ℕ) := none

/-- Fold one item into a batch. -/
def Batch.add (batch : Batch) : OrchestrationThreadStreamItem → Batch
  | .synchronized => { batch with synchronized := true }
  | .snapshot _ => batch
  | .event event =>
    if event.sequence ≤ batch.sequence then batch
    else
      match applyThreadDetailEvent js batch.thread event with
      | .updated thread =>
        { batch with
          thread
          sequence := event.sequence
          updated := true
          persistable := if shouldPersistThread thread then some (thread, event.sequence)
            else batch.persistable }
      | _ => { batch with sequence := event.sequence }

/-- Whether an item has to be applied on its own: it replaces or rewrites what is loaded. -/
def rewritesHistory : OrchestrationThreadStreamItem → Bool
  | .synchronized => false
  | .snapshot _ => true
  | .event event => event.revertsThread || event.deletesThread

/-- Publish what a batch has folded. -/
def publish (m : ThreadMachine) (batch : Batch) : ThreadMachine :=
  let m := { m with lastSequence := batch.sequence }
  let m := if batch.updated then m.setThread batch.thread none else m
  let m := match batch.persistable with
    | some (thread, sequence) =>
      -- a settled thread that the next turn has already overtaken, under its own sequence
      if shouldPersistThread batch.thread then m else m.offerThreadPersistence thread sequence
    | none => m
  if batch.synchronized then m.applyItem js .synchronized else m

/-- **A batch of items**: folded and published once, where nothing in it rewrites history. -/
def applyItems (m : ThreadMachine) (items : List OrchestrationThreadStreamItem) : ThreadMachine :=
  match m.state.data, m.pendingOlderPage with
  | some thread, none =>
    if items.any rewritesHistory then m.applyEach js items
    else m.publish js (items.foldl (Batch.add js) { thread, sequence := m.lastSequence })
  | _, _ => m.applyEach js items

end ThreadMachine

end Awen.Orchestration
