import Awen.Orchestration.ThreadRuns
import Awen.Orchestration.ThreadProjections

/-!
# The lifecycle of a thread in three folds

Whether a thread is settled, snoozed, pinned or archived, its title and its branch: these fields
are written by three switches over the same events. `lifecycleAfter` says once what an event does to
them, and each of the three folds is shown to do that. So the folds agree on every live thread,
after each event of a run (`lifecycle_of_passes`).
-/

namespace Awen.Orchestration

/-! ## What an event does to the lifecycle -/

/-- **The lifecycle of a thread**: the fields that lists of threads are made from. -/
structure ThreadLifecycle where
  settledOverride : Option SettledOverride
  settledAt : Option IsoDateTime
  unsettledAt : Option IsoDateTime
  snoozedUntil : Option IsoDateTime
  snoozedAt : Option IsoDateTime
  pinnedAt : Option IsoDateTime
  pinOrderKey : Option String
  activeOrderKey : Option String
  archivedAt : Option IsoDateTime
  title : String
  titleState : Option ThreadTitleState
  titleRegeneration : Option ThreadTitleRegeneration
  branch : Option String
  worktreePath : Option String
  deriving DecidableEq

/-- What an event of a thread that exists does to its lifecycle. -/
def lifecycleAfter (payload : ThreadEventPayload) (lifecycle : ThreadLifecycle) : ThreadLifecycle :=
  match payload with
  | .archived archivedAt _ =>
    { lifecycle with archivedAt := some archivedAt, titleRegeneration := none }
  | .unarchived _ => { lifecycle with archivedAt := none }
  | .settled settledAt _ =>
    { lifecycle with
      settledOverride := some .settled
      settledAt := some settledAt
      unsettledAt := none
      activeOrderKey := none }
  | .unsettled reason updatedAt =>
    { lifecycle with
      settledOverride := if reason = .user then some .active else none
      settledAt := none
      unsettledAt := if lifecycle.settledOverride = some .active then lifecycle.unsettledAt
        else some updatedAt }
  | .snoozed snoozedUntil snoozedAt _ =>
    { lifecycle with snoozedUntil := some snoozedUntil, snoozedAt := some snoozedAt }
  | .unsnoozed .. => { lifecycle with snoozedUntil := none, snoozedAt := none }
  | .pinned pinnedAt pinOrderKey _ =>
    { lifecycle with
      pinnedAt := some pinnedAt
      pinOrderKey := pinOrderKey.or lifecycle.pinOrderKey }
  | .unpinned _ => { lifecycle with pinnedAt := none, pinOrderKey := none }
  | .pinReordered orderKey _ => { lifecycle with pinOrderKey := some orderKey }
  | .metaUpdated payload =>
    { lifecycle with
      title := payload.title.getD lifecycle.title
      titleState := payload.titleState.getD lifecycle.titleState
      titleRegeneration := payload.titleRegeneration.getD lifecycle.titleRegeneration
      activeOrderKey := payload.activeOrderKey.getD lifecycle.activeOrderKey
      branch := payload.branch.getD lifecycle.branch
      worktreePath := payload.worktreePath.getD lifecycle.worktreePath }
  | _ => lifecycle

/-- The lifecycle of a thread, in the read model or at a client. -/
def OrchestrationThread.lifecycle (thread : OrchestrationThread) : ThreadLifecycle where
  settledOverride := thread.settledOverride
  settledAt := thread.settledAt
  unsettledAt := thread.unsettledAt
  snoozedUntil := thread.snoozedUntil
  snoozedAt := thread.snoozedAt
  pinnedAt := thread.pinnedAt
  pinOrderKey := thread.pinOrderKey
  activeOrderKey := thread.activeOrderKey
  archivedAt := thread.archivedAt
  title := thread.title
  titleState := thread.titleState
  titleRegeneration := thread.titleRegeneration
  branch := thread.branch
  worktreePath := thread.worktreePath

/-- The pending title request of a row, which is kept in two columns. -/
def ProjectionThread.titleRegeneration (row : ProjectionThread) : Option ThreadTitleRegeneration :=
  match row.titleRegenerationRequestId, row.titleRegenerationStartedAt with
  | some requestId, some startedAt => some { requestId, startedAt }
  | _, _ => none

/-- The lifecycle of a row. -/
def ProjectionThread.lifecycle (row : ProjectionThread) : ThreadLifecycle where
  settledOverride := row.settledOverride
  settledAt := row.settledAt
  unsettledAt := row.unsettledAt
  snoozedUntil := row.snoozedUntil
  snoozedAt := row.snoozedAt
  pinnedAt := row.pinnedAt
  pinOrderKey := row.pinOrderKey
  activeOrderKey := row.activeOrderKey
  archivedAt := row.archivedAt
  title := row.title
  titleState := row.titleState
  titleRegeneration := row.titleRegeneration
  branch := row.branch
  worktreePath := row.worktreePath

/-! ## Each fold does that -/

section Folds

variable {js : JsRuntime} {projects : List OrchestrationProject} {occurredAt : IsoDateTime}
  {threadId : ThreadId} {payload : ThreadEventPayload}

/-- The read model. -/
theorem lifecycle_threadPatch (h : payload.bounds = false) (thread : OrchestrationThread) :
    (threadPatch js projects occurredAt thread payload thread).lifecycle =
      lifecycleAfter payload thread.lifecycle := by
  cases payload
  case created => cases h
  case deleted => cases h
  all_goals simp only [threadPatch, pullRequestsPatch]
  case metaUpdated => split <;> rfl
  case pullRequestSynced => split <;> rfl
  case turnDiffCompleted => split <;> rfl
  case unsettled => rfl
  all_goals simp only [OrchestrationThread.lifecycle, lifecycleAfter]

/-- The client. -/
theorem lifecycle_foldThreadDetail (h : payload.bounds = false) (thread : OrchestrationThread) :
    (foldThreadDetail js occurredAt threadId payload (some thread)).map
      OrchestrationThread.lifecycle = some (lifecycleAfter payload thread.lifecycle) := by
  cases payload
  case created => cases h
  case deleted => cases h
  all_goals simp only [foldThreadDetail, applyThreadDetailPayload, withPullRequests]
  case pullRequestSynced => split <;> rfl
  case turnInterruptRequested =>
    split
    · split <;> rfl
    · rfl
  case turnDiffCompleted => split <;> rfl
  case sessionStopRequested => split <;> rfl
  all_goals rfl

variable {tables : ThreadTables} {row : ProjectionThread} {reads : ThreadReads}

@[simp] theorem threadId_of_get {k : ThreadId} (h : tables.threads.get k = some row) :
    row.threadId = k :=
  (Table.get_eq_some.mp h).2

/-- A change to the row of one thread, which has a lifecycle after it. -/
structure RowAfter (threads threads' : Table ProjectionThread.threadId) (threadId : ThreadId)
    (lifecycle : ThreadLifecycle) : Prop where
  other : ∀ k, k ≠ threadId → threads'.get k = threads.get k
  own : (threads'.get threadId).map ProjectionThread.lifecycle = some lifecycle

theorem rowAfter_upsert {threads : Table ProjectionThread.threadId} {lifecycle : ThreadLifecycle}
    (row : ProjectionThread) (hlifecycle : row.lifecycle = lifecycle) :
    RowAfter threads (threads.upsert row) row.threadId lifecycle where
  other k hk := by rw [Table.get_upsert, if_neg hk]
  own := by rw [Table.get_upsert, if_pos rfl, Option.map_some, hlifecycle]

/-- The table. -/
theorem rowAfter_updateThreadRow (h : payload.bounds = false)
    (hrow : tables.threads.get threadId = some row) :
    RowAfter tables.threads
      (updateThreadRow js reads occurredAt threadId payload row tables).threads threadId
      (lifecycleAfter payload row.lifecycle) := by
  obtain rfl : row.threadId = threadId := threadId_of_get hrow
  have hsame : RowAfter tables.threads tables.threads row.threadId row.lifecycle :=
    ⟨fun _ _ ↦ rfl, by rw [hrow, Option.map_some]⟩
  cases payload
  case created => cases h
  case deleted => cases h
  all_goals simp only [updateThreadRow]
  case metaUpdated payload =>
    obtain ⟨_, _, _, _, regeneration, _, _, _, _, linked, _, _⟩ := payload
    -- the links have a table of their own, and the pending title is kept in two columns
    cases linked with
    | none => obtain _ | _ | _ := regeneration <;> exact rowAfter_upsert _ rfl
    | some linked => cases linked <;> obtain _ | _ | _ := regeneration <;>
        exact rowAfter_upsert _ rfl
  case pullRequestUnlinked => split <;> exact rowAfter_upsert _ rfl
  case pullRequestSynced =>
    split
    · exact hsame
    · exact rowAfter_upsert _ rfl
  case activityAppended => split <;> exact rowAfter_upsert _ rfl
  all_goals first
    | exact hsame
    | exact rowAfter_upsert _ rfl

/-- The projector writes no row of another thread. -/
theorem get_applyThreadsProjection_of_ne {k : ThreadId} (hk : k ≠ threadId) :
    (applyThreadsProjection js reads occurredAt threadId payload tables).threads.get k =
      tables.threads.get k := by
  by_cases hbounds : payload.bounds = false
  · rw [applyThreadsProjection_of_bounds hbounds]
    cases hrow : tables.threads.get threadId with
    | none => rfl
    | some row => exact (rowAfter_updateThreadRow hbounds hrow).other k hk
  · cases payload <;> simp only [ThreadEventPayload.bounds, not_true_eq_false] at hbounds
    case created payload =>
      exact (rowAfter_upsert (createdThreadRow threadId payload) rfl).other k hk
    case deleted deletedAt =>
      simp only [applyThreadsProjection]
      cases hrow : (tables.deletePullRequests threadId).threads.get threadId with
      | none => rfl
      | some row =>
        obtain rfl : row.threadId = threadId := threadId_of_get hrow
        exact (rowAfter_upsert _ rfl).other k hk

end Folds

/-! ## The folds agree -/

/-- The three folds of a thread have one lifecycle. -/
def LifecycleAgrees (threadId : ThreadId) (thread : OrchestrationThread) (tables : ThreadTables)
    (shown : Option OrchestrationThread) : Prop :=
  (tables.threads.get threadId).map ProjectionThread.lifecycle = some thread.lifecycle ∧
    shown.map OrchestrationThread.lifecycle = some thread.lifecycle

variable {js : JsRuntime} {reads : ℕ → ThreadReads}

theorem lifecycleAgrees_created (threadReads : ThreadReads) (occurredAt : IsoDateTime)
    (threadId : ThreadId) (created : ThreadCreatedPayload) (tables : ThreadTables)
    (shown : Option OrchestrationThread) :
    LifecycleAgrees threadId (createdThread threadId created)
      (applyThreadsProjection js threadReads occurredAt threadId (.created created) tables)
      (foldThreadDetail js occurredAt threadId (.created created) shown) := by
  refine ⟨(rowAfter_upsert (createdThreadRow threadId created) rfl).own, ?_⟩
  cases shown <;> rfl

/-- **An event keeps the lifecycles of its thread the same.** -/
theorem LifecycleAgrees.own {projects : List OrchestrationProject} {occurredAt : IsoDateTime}
    {threadId : ThreadId} {payload : ThreadEventPayload} {threadReads : ThreadReads}
    {thread : OrchestrationThread} {tables : ThreadTables} {shown : Option OrchestrationThread}
    (h : LifecycleAgrees threadId thread tables shown) (hbounds : payload.bounds = false) :
    LifecycleAgrees threadId (threadPatch js projects occurredAt thread payload thread)
      (applyThreadsProjection js threadReads occurredAt threadId payload tables)
      (foldThreadDetail js occurredAt threadId payload shown) := by
  obtain ⟨hrow, hshown⟩ := h
  obtain ⟨row, hget, hrow⟩ := Option.map_eq_some_iff.mp hrow
  obtain ⟨detail, rfl, hdetail⟩ := Option.map_eq_some_iff.mp hshown
  rw [LifecycleAgrees, lifecycle_threadPatch hbounds, lifecycle_foldThreadDetail hbounds,
    applyThreadsProjection_of_bounds hbounds, hget, hdetail]
  refine ⟨?_, rfl⟩
  rw [← hrow]
  exact (rowAfter_updateThreadRow hbounds hget).own

/-- **The lifecycle of every live thread is the same in the read model, in the database and at
clients**, after each event of every run. -/
theorem lifecycle_of_passes {nowIso : IsoDateTime} {s : ThreadProjections}
    {log : List PlannedOrchestrationEvent}
    (h : (projectionModel js reads).Passes anyDispatch (.start nowIso) s log) :
    ∀ thread ∈ s.readModel.threads, thread.deletedAt = none →
      (∃ row, s.tables.threads.get thread.id = some row ∧ row.lifecycle = thread.lifecycle) ∧
        ∃ shown, s.clients thread.id = some shown ∧ shown.lifecycle = thread.lifecycle := by
  intro thread hthread hlive
  have hmeets : ∀ s dispatch events, anyDispatch s dispatch → (projectionModel js reads).decide
        ((projectionModel js reads).prepare s dispatch) dispatch = .ok events →
      EveryStep (projectionModel js reads).evolve (fun _ _ ↦ True)
        ((projectionModel js reads).prepare s dispatch) events :=
    fun _ _ _ _ _ ↦ everyStep_of_forall (fun _ _ ↦ trivial) _ _
  obtain ⟨hrow, hshown⟩ : LifecycleAgrees thread.id thread s.tables (s.clients thread.id) := by
    refine agreement_of_passes (fun reads occurredAt ↦ lifecycleAgrees_created reads occurredAt)
      (fun _ _ _ _ k t tables shown hk hagree ↦ ?_)
      (fun _ _ _ _ _ _ _ _ _ _ hbounds hagree ↦ hagree.own hbounds) hmeets h thread hthread hlive
    rw [LifecycleAgrees, get_applyThreadsProjection_of_ne hk]
    exact hagree
  exact ⟨Option.map_eq_some_iff.mp hrow, Option.map_eq_some_iff.mp hshown⟩

/-- The run that pins a thread and imports a history into it. -/
theorem lifecycle_of_passes_pin :
    ((projectionModel plainRuntime fun _ ↦ {}).run anyDispatch
        (.start "2026-03-01T12:00:00.000Z") pinThenImport).2.length = 5 ∧
    ∀ thread ∈ ((projectionModel plainRuntime fun _ ↦ {}).run anyDispatch
        (.start "2026-03-01T12:00:00.000Z") pinThenImport).1.readModel.threads,
      thread.deletedAt = none →
      (∃ row, ((projectionModel plainRuntime fun _ ↦ {}).run anyDispatch
          (.start "2026-03-01T12:00:00.000Z") pinThenImport).1.tables.threads.get thread.id =
            some row ∧ row.lifecycle = thread.lifecycle) ∧
        ∃ shown, ((projectionModel plainRuntime fun _ ↦ {}).run anyDispatch
          (.start "2026-03-01T12:00:00.000Z") pinThenImport).1.clients thread.id = some shown ∧
            shown.lifecycle = thread.lifecycle :=
  ⟨by decide +kernel, lifecycle_of_passes (.reached (EventSourced.reaches_run _ _ _ _))⟩

end Awen.Orchestration
