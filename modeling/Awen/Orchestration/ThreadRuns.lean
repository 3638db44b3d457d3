import Awen.Orchestration.PlannedEvents
import Awen.Shared.PlainRuntime

/-!
# What every thread of a run keeps

A fact about single threads holds in every reachable read model if the accepted commands of a thread
keep it, and deletion does: `thread_of_reaches`. For most commands that comes down to single events,
by `threadFold_planned`, and an event leaves every field alone that its type does not write.
-/

namespace Awen.Orchestration

variable {js : JsRuntime}

/-! ## Fields that events leave alone -/

section Frame

variable {projects : List OrchestrationProject} {occurredAt : IsoDateTime}
  {thread entry : OrchestrationThread} {payload : ThreadEventPayload}

theorem pinnedAt_threadPatch (h : payload.type ∉ ["thread.pinned", "thread.unpinned"]) :
    (threadPatch js projects occurredAt thread payload entry).pinnedAt = entry.pinnedAt := by
  cases payload <;> simp only [ThreadEventPayload.type, threadPatch, pullRequestsPatch] at h ⊢
  case metaUpdated => split <;> rfl
  case pullRequestSynced => split <;> rfl
  case turnDiffCompleted => split <;> rfl
  case pinned => simp at h
  case unpinned => simp at h

theorem settledOverride_threadPatch
    (h : payload.type ∉ ["thread.settled", "thread.unsettled"]) :
    (threadPatch js projects occurredAt thread payload entry).settledOverride =
      entry.settledOverride := by
  cases payload <;> simp only [ThreadEventPayload.type, threadPatch, pullRequestsPatch] at h ⊢
  case metaUpdated => split <;> rfl
  case pullRequestSynced => split <;> rfl
  case turnDiffCompleted => split <;> rfl
  case settled => simp at h
  case unsettled => simp at h

/-- No event brings a deleted thread back, but that a new one takes its place. -/
theorem deletedAt_threadPatch
    (h : (threadPatch js projects occurredAt thread payload entry).deletedAt = none) :
    entry.deletedAt = none := by
  cases payload <;> simp only [threadPatch, pullRequestsPatch] at h
  case metaUpdated =>
    split at h <;> exact h
  case pullRequestSynced =>
    split at h <;> exact h
  case turnDiffCompleted =>
    split at h <;> exact h
  case deleted => simp at h
  all_goals exact h

end Frame

/-! ## Folds of planned events -/

section Fold

variable {projects : List OrchestrationProject} {threadId : ThreadId} {commandId : CommandId}

@[simp] theorem threadFold_nil (thread : Option OrchestrationThread) :
    threadFold js projects threadId [] thread = thread := rfl

theorem threadFold_append (events rest : List PlannedOrchestrationEvent)
    (thread : Option OrchestrationThread) :
    threadFold js projects threadId (events ++ rest) thread =
      threadFold js projects threadId rest (threadFold js projects threadId events thread) :=
  List.foldl_append

@[simp] theorem threadFold_threadEvent_cons (occurredAt : IsoDateTime)
    (payload : ThreadEventPayload) (metadata : OrchestrationEventMetadata)
    (rest : List PlannedOrchestrationEvent) (thread : Option OrchestrationThread) :
    threadFold js projects threadId
        (threadEvent commandId threadId occurredAt payload metadata :: rest) thread =
      threadFold js projects threadId rest
        (eventThread js projects occurredAt threadId payload thread) := rfl

/-- An event that is planned alone. -/
theorem planned_single {occurredAt : IsoDateTime} {payload : ThreadEventPayload}
    {metadata : OrchestrationEventMetadata} :
    ∀ event ∈ [threadEvent commandId threadId occurredAt payload metadata],
      Planned commandId threadId [payload.type] event := by
  simpa using planned_threadEvent List.mem_cons_self

/-- A companion event that is planned only on a condition. -/
theorem planned_companion {p : Prop} [Decidable p] {occurredAt : IsoDateTime}
    {payload : ThreadEventPayload} : ∀ event ∈ (if p then
      [threadEvent commandId threadId occurredAt payload] else []),
      Planned commandId threadId [payload.type] event := by
  intro event he
  simp only [List.mem_ite_nil_right, List.mem_singleton] at he
  rw [he.2]
  exact planned_threadEvent List.mem_cons_self

/-- What every event of the given types keeps, planned events of these types keep. -/
theorem threadFold_planned {types : List String} {Q : Option OrchestrationThread → Prop}
    (hevent : ∀ occurredAt (payload : ThreadEventPayload) thread, payload.type ∈ types →
      Q thread → Q (eventThread js projects occurredAt threadId payload thread))
    {events : List PlannedOrchestrationEvent}
    (hevents : ∀ event ∈ events, Planned commandId threadId types event)
    {thread : Option OrchestrationThread} (h : Q thread) :
    Q (threadFold js projects threadId events thread) := by
  induction events generalizing thread with
  | nil => exact h
  | cons event events ih =>
    obtain ⟨payload, hpayload, htype⟩ := (hevents event List.mem_cons_self).payload
    rw [threadFold, List.foldl_cons]
    simp only [hpayload]
    exact ih (fun e he ↦ hevents e (List.mem_cons_of_mem _ he)) (hevent _ _ _ htype h)

/-- A fact that holds of a new thread and that patches keep, events keep. -/
theorem eventThread_of_patch {P : OrchestrationThread → Prop} {occurredAt : IsoDateTime}
    {payload : ThreadEventPayload} {thread : Option OrchestrationThread}
    (hcreated : ∀ payload, P (createdThread threadId payload))
    (hpatch : ∀ t, P t → P (threadPatch js projects occurredAt t payload t))
    (h : ∀ t, thread = some t → P t) :
    ∀ t, eventThread js projects occurredAt threadId payload thread = some t → P t := by
  intro t ht
  cases payload
  case created payload =>
    obtain rfl := Option.some_inj.mp ht
    exact hcreated payload
  all_goals
    obtain ⟨t', ht', rfl⟩ := Option.map_eq_some_iff.mp ht
    exact hpatch t' (h t' ht')

end Fold

/-! ## Runs -/

/-- A condition on accepted commands, and none. -/
abbrev CommandCondition := OrchestrationReadModel → Dispatch → Prop

def anyCommand : CommandCondition := fun _ _ ↦ True

instance (model : OrchestrationReadModel) (dispatch : Dispatch) :
    Decidable (anyCommand model dispatch) :=
  inferInstanceAs (Decidable True)

/-- The events of a project command leave a thread as it is, or delete it. -/
theorem findThread_fold_project {Q : Option OrchestrationThread → Prop}
    (hdeleted : ∀ thread at', Q thread → Q (thread.map fun t : OrchestrationThread ↦
      { t with deletedAt := some at', updatedAt := at' }))
    {commandId : CommandId} {projectId : ProjectId} {events : List PlannedOrchestrationEvent}
    (hevents : ∀ event ∈ events, IsThreadDeletion commandId event ∨
      ∃ payload, event.payload = .project projectId payload)
    {model : OrchestrationReadModel} {k : ThreadId} (h : Q (findThread model.threads k)) :
    Q (findThread ((commandModel js).fold model events).threads k) := by
  refine EventSourced.fold_invariant
    (P := fun model : OrchestrationReadModel ↦ Q (findThread model.threads k))
    (fun model event hmodel hevent ↦ ?_) hevents h
  obtain ⟨threadId, at', rfl⟩ | ⟨payload, hpayload⟩ := hevent
  · rw [findThread_evolve rfl]
    split
    · rename_i hk
      rw [hk] at hmodel
      exact hdeleted _ at' hmodel
    · exact hmodel
  · rw [threads_evolve_project hpayload]
    exact hmodel

/-- **One thread across an accepted command.** The commands of other threads leave it alone, and
those of a project can only delete it. -/
theorem findThread_step {Q : Option OrchestrationThread → Prop}
    (hdeleted : ∀ thread at', Q thread → Q (thread.map fun t : OrchestrationThread ↦
      { t with deletedAt := some at', updatedAt := at' }))
    {model : OrchestrationReadModel} {dispatch : Dispatch} {k : ThreadId}
    {events : List PlannedOrchestrationEvent}
    (hdecided : (commandModel js).decide ((commandModel js).prepare model dispatch) dispatch =
      .ok events)
    (hown : ∀ commandId command, dispatch.command = ⟨commandId, .thread k command⟩ →
      decideOrchestrationCommand js (resolveRepositoryIdentity model dispatch) dispatch.clock
        dispatch.userInputActivity ⟨commandId, .thread k command⟩ = .ok events →
      Q (threadFold js (resolveRepositoryIdentity model dispatch).projects k events
        (findThread model.threads k)))
    (h : Q (findThread model.threads k)) :
    Q (findThread ((commandModel js).fold ((commandModel js).prepare model dispatch)
      events).threads k) := by
  have hthreads : ((commandModel js).prepare model dispatch).threads = model.threads :=
    threads_resolveRepositoryIdentity model dispatch
  obtain ⟨⟨commandId, body⟩, clock, userInputActivity, repositoryIdentity⟩ := dispatch
  cases body with
  | project projectId command =>
    have hevents : ∀ event ∈ events, IsThreadDeletion commandId event ∨
        ∃ payload, event.payload = .project projectId payload := by
      obtain ⟨_, payload, -, rfl⟩ | ⟨deletions, now, rfl, hdeletions, -⟩ :=
        decide_project_eq_ok hdecided
      · simp only [List.mem_singleton, forall_eq]
        exact .inr ⟨payload, rfl⟩
      · intro event he
        rcases List.mem_append.mp he with he | he
        · exact .inl (hdeletions event he)
        · exact .inr ⟨_, congrArg _ (List.mem_singleton.mp he)⟩
    refine findThread_fold_project hdeleted hevents ?_
    rw [hthreads]
    exact h
  | thread threadId command =>
    by_cases hk : k = threadId
    · subst hk
      rw [(eventsOf_of_decide hdecided).findThread_fold, hthreads]
      exact hown commandId command rfl hdecided
    · rw [(eventsOf_of_decide hdecided).findThread_fold_of_ne hk, hthreads]
      exact h

/-- **The induction over runs, for single threads.** -/
theorem thread_of_reaches {P : OrchestrationThread → Prop} {ok : CommandCondition}
    (hdeleted : ∀ t at', P t → P { t with deletedAt := some at', updatedAt := at' })
    (hstep : ∀ model (dispatch : Dispatch) commandId threadId command events,
      (∀ t, findThread model.threads threadId = some t → P t) → ok model dispatch →
      dispatch.command = ⟨commandId, .thread threadId command⟩ →
      decideOrchestrationCommand js (resolveRepositoryIdentity model dispatch) dispatch.clock
        dispatch.userInputActivity ⟨commandId, .thread threadId command⟩ = .ok events →
      ∀ t, threadFold js (resolveRepositoryIdentity model dispatch).projects threadId events
        (findThread model.threads threadId) = some t → P t)
    {nowIso : IsoDateTime} {model : OrchestrationReadModel} {log : List PlannedOrchestrationEvent}
    (h : (commandModel js).Reaches ok (createEmptyReadModel nowIso) model log) :
    ∀ t ∈ model.threads, P t := by
  have hfind : ∀ k t, findThread model.threads k = some t → P t := by
    refine h.invariant
      (P := fun model : OrchestrationReadModel ↦ ∀ k t, findThread model.threads k = some t → P t)
      (fun k t ht ↦ nomatch ht) fun model dispatch events hmodel hok hdecided k ↦ ?_
    refine findThread_step
      (Q := fun thread ↦ ∀ t, thread = some t → P t)
      (fun thread at' hthread t ht ↦ ?_) hdecided ?_ (hmodel k)
    · obtain ⟨t', ht', rfl⟩ := Option.map_eq_some_iff.mp ht
      exact hdeleted t' at' (hthread t' ht')
    · intro commandId command hcommand hdecided
      exact hstep model dispatch commandId k command events (hmodel k) hok hcommand hdecided
  intro t ht
  exact hfind t.id t ((threadIdsDistinct_of_reaches h).mem_threads_iff.mp ht)

end Awen.Orchestration

/-!
## Pinned threads are not settled

Settling unpins a thread and pinning ends its settlement, each by a companion event in the same
plan. The third command that settles, the import of a history, has no such companion: it asks that
the thread be empty, not that it be unpinned. `unpinned_or_unsettled_of_reaches` says that the
exclusion holds in every run whose imports go to unpinned threads, and `importPinned` is a run in
which one does not.
-/

namespace Awen.Orchestration

variable {js : JsRuntime}

/-- A thread is not both pinned and settled. -/
def UnpinnedOrUnsettled (thread : OrchestrationThread) : Prop :=
  thread.pinnedAt = none ∨ thread.settledOverride ≠ some .settled

instance (thread : OrchestrationThread) : Decidable (UnpinnedOrUnsettled thread) :=
  inferInstanceAs (Decidable (_ ∨ _))

/-- If the command is the import of a history, its thread is not pinned. -/
def importsUnpinned : CommandCondition := fun model dispatch ↦
  match dispatch.command.body with
  | .thread threadId (.historyImport _) =>
    (findThread model.threads threadId).all (·.pinnedAt.isNone) = true
  | _ => True

instance (model : OrchestrationReadModel) (dispatch : Dispatch) :
    Decidable (importsUnpinned model dispatch) := by
  unfold importsUnpinned
  split <;> infer_instance

section Folds

variable {projects : List OrchestrationProject} {threadId : ThreadId} {commandId : CommandId}
  {types : List String} {events : List PlannedOrchestrationEvent}
  {thread : Option OrchestrationThread}

/-- Only `thread.pinned` pins. -/
theorem unpinned_threadFold (htypes : "thread.pinned" ∉ types)
    (hevents : ∀ event ∈ events, Planned commandId threadId types event)
    (h : ∀ t, thread = some t → t.pinnedAt = none) :
    ∀ t, threadFold js projects threadId events thread = some t → t.pinnedAt = none := by
  refine threadFold_planned
    (Q := fun thread ↦ ∀ t, thread = some t → OrchestrationThread.pinnedAt t = none)
    (fun occurredAt payload thread htype hthread ↦ eventThread_of_patch (fun _ ↦ rfl)
      (fun t ht ↦ ?_) hthread) hevents h
  by_cases hunpinned : payload.type = "thread.unpinned"
  · cases payload <;> simp only [ThreadEventPayload.type, String.reduceEq] at hunpinned
    rfl
  · have hpinned : payload.type ≠ "thread.pinned" := fun heq ↦ htypes (heq ▸ htype)
    rw [pinnedAt_threadPatch (by simp [hunpinned, hpinned]), ht]

/-- Only `thread.settled` settles. -/
theorem unsettled_threadFold (htypes : "thread.settled" ∉ types)
    (hevents : ∀ event ∈ events, Planned commandId threadId types event)
    (h : ∀ t, thread = some t → t.settledOverride ≠ some .settled) :
    ∀ t, threadFold js projects threadId events thread = some t →
      t.settledOverride ≠ some .settled := by
  refine threadFold_planned
    (Q := fun thread ↦ ∀ t, thread = some t →
      OrchestrationThread.settledOverride t ≠ some .settled)
    (fun occurredAt payload thread htype hthread ↦ eventThread_of_patch (fun _ ↦ by
      simp [createdThread]) (fun t ht ↦ ?_) hthread) hevents h
  by_cases hunsettled : payload.type = "thread.unsettled"
  · cases payload <;> simp only [ThreadEventPayload.type, String.reduceEq] at hunsettled
    simp only [threadPatch]
    split <;> simp
  · have hsettled : payload.type ≠ "thread.settled" := fun heq ↦ htypes (heq ▸ htype)
    rwa [settledOverride_threadPatch (by simp [hunsettled, hsettled])]

end Folds

section Commands

variable {readModel : OrchestrationReadModel} {context : DecisionContext}
  {projects : List OrchestrationProject} {threadId : ThreadId} {commandId : CommandId}
  {events : List PlannedOrchestrationEvent} {thread : OrchestrationThread}

/-- Settling a pinned thread unpins it. -/
private theorem unpinned_decideSettle {type : String} {auto : Option IsoDateTime}
    (h : decideSettle js readModel context commandId threadId type auto = .ok events)
    (hfind : findThread readModel.threads threadId = some thread)
    (hpinned : thread.pinnedAt.isSome = true) :
    ∀ t, threadFold js projects threadId events (some thread) = some t → t.pinnedAt = none := by
  simp only [decideSettle, requireThreadNotArchived_bind_eq_ok, ensure_bind_eq_ok,
    pure_eq_ok, hfind, Option.some.injEq] at h
  obtain ⟨_, rfl, -, -, -, -, -, rfl⟩ := h
  rw [if_pos hpinned, threadFold_append, threadFold_append]
  refine unpinned_threadFold (by simp [ThreadEventPayload.type]) planned_companion fun t ht ↦ ?_
  obtain ⟨t', -, rfl⟩ := Option.map_eq_some_iff.mp ht
  rfl

/-- Pinning a settled thread ends the settlement. -/
private theorem unsettled_decidePin {orderKey : Option String}
    (h : decidePin readModel context commandId threadId orderKey = .ok events)
    (hfind : findThread readModel.threads threadId = some thread)
    (hsettled : thread.settledOverride = some .settled) :
    ∀ t, threadFold js projects threadId events (some thread) = some t →
      t.settledOverride ≠ some .settled := by
  simp only [decidePin, requireThreadNotArchived_bind_eq_ok, pure_eq_ok, hfind,
    Option.some.injEq] at h
  obtain ⟨_, rfl, -, rfl⟩ := h
  rw [if_pos hsettled, threadFold_append]
  refine unsettled_threadFold (by simp [ThreadEventPayload.type]) planned_companion fun t ht ↦ ?_
  simp only [threadFold_threadEvent_cons, threadFold_nil, eventThread, Option.map_some,
    Option.some.injEq] at ht
  rw [← ht]
  simp [threadPatch]

end Commands

/-- Only one command pins. -/
private theorem exists_eq_pin {command : ThreadCommand} (h : "thread.pinned" ∈ command.emits) :
    ∃ orderKey, command = .pin orderKey := by
  cases command <;> simp [ThreadCommand.emits] at h ⊢

/-- Three commands settle. -/
theorem eq_settle_or_exists_eq {command : ThreadCommand}
    (h : "thread.settled" ∈ command.emits) :
    command = .settle ∨ (∃ sequence settledAt, command = .autoSettle sequence settledAt) ∨
      ∃ messages, command = .historyImport messages := by
  cases command <;> simp [ThreadCommand.emits] at h ⊢

/-- **No thread is both pinned and settled**, in every run whose imports of a history go to threads
that are not pinned. -/
theorem unpinned_or_unsettled_of_reaches {nowIso : IsoDateTime} {model : OrchestrationReadModel}
    {log : List PlannedOrchestrationEvent}
    (h : (commandModel js).Reaches importsUnpinned (createEmptyReadModel nowIso) model log) :
    ∀ t ∈ model.threads, t.pinnedAt = none ∨ t.settledOverride ≠ some .settled := by
  refine thread_of_reaches (P := UnpinnedOrUnsettled) (fun t at' ht ↦ ht) ?_ h
  intro model dispatch commandId threadId command events hthread hok hdispatch hdecided t ht
  have hplanned := planned_of_decide hdecided
  have hthreads := threads_resolveRepositoryIdentity model dispatch
  by_cases hpins : "thread.pinned" ∈ command.emits
  · obtain ⟨orderKey, rfl⟩ := exists_eq_pin hpins
    by_cases hsettled : ∀ t, findThread model.threads threadId = some t →
        t.settledOverride ≠ some .settled
    · exact .inr (unsettled_threadFold (by simp [ThreadCommand.emits]) hplanned hsettled t ht)
    · push Not at hsettled
      obtain ⟨thread, hfind, hsettled⟩ := hsettled
      rw [hfind] at ht
      exact .inr (unsettled_decidePin hdecided (by rw [hthreads, hfind]) hsettled t ht)
  by_cases hunpinned : ∀ t, findThread model.threads threadId = some t → t.pinnedAt = none
  · exact .inl (unpinned_threadFold hpins hplanned hunpinned t ht)
  push Not at hunpinned
  obtain ⟨thread, hfind, hpinned⟩ := hunpinned
  by_cases hsettles : "thread.settled" ∈ command.emits
  · rw [hfind] at ht
    have hpinnedAt := Option.isSome_iff_ne_none.mpr hpinned
    obtain rfl | ⟨_, _, rfl⟩ | ⟨messages, rfl⟩ := eq_settle_or_exists_eq hsettles
    · exact .inl (unpinned_decideSettle hdecided (by rw [hthreads, hfind]) hpinnedAt t ht)
    · exact .inl (unpinned_decideSettle hdecided (by rw [hthreads, hfind]) hpinnedAt t ht)
    · simp [importsUnpinned, hdispatch, hfind, hpinned] at hok
  · refine .inr (unsettled_threadFold hsettles hplanned (fun t' ht' ↦ ?_) t ht)
    obtain rfl := Option.some_inj.mp (hfind.symm.trans ht')
    exact (hthread _ hfind).resolve_left hpinned

/-! ## A run that pins, then imports -/

/-- A command at a fixed time. -/
def dispatchAt (now : IsoDateTime) (commandId : CommandId) (body : OrchestrationCommandBody) :
    Dispatch where
  command := ⟨commandId, body⟩
  clock _ := now

/-- Create a project and a thread in it. -/
def createProjectAndThread : List Dispatch :=
  [dispatchAt "2026-03-01T12:00:00.000Z" "c1"
      (.project "p" (.create "P" "/p" "2026-03-01T12:00:00.000Z")),
    dispatchAt "2026-03-01T12:00:01.000Z" "c2" (.thread "t" (.create {
      projectId := "p", title := "T", modelSelection := .null, runtimeMode := .auto
      interactionMode := .default, branch := none, worktreePath := none
      createdAt := "2026-03-01T12:00:01.000Z" }))]

/-- Pin the thread, then import a history into it. -/
def pinThenImport : List Dispatch := createProjectAndThread ++
  [dispatchAt "2026-03-01T12:00:02.000Z" "c3" (.thread "t" (.pin none)),
    dispatchAt "2026-03-01T12:00:03.000Z" "c4" (.thread "t" (.historyImport [{
      messageId := "import:1", role := .user, text := "hello"
      createdAt := "2025-01-01T00:00:00.000Z", role_ne_system := by simp }]))]

theorem unpinned_or_unsettled_of_reaches_pin :
    ((commandModel plainRuntime).run importsUnpinned
        (createEmptyReadModel "2026-03-01T12:00:00.000Z") pinThenImport).2.length = 3 ∧
    ∀ t ∈ ((commandModel plainRuntime).run importsUnpinned
        (createEmptyReadModel "2026-03-01T12:00:00.000Z") pinThenImport).1.threads,
      t.pinnedAt = none ∨ t.settledOverride ≠ some .settled :=
  ⟨by decide, unpinned_or_unsettled_of_reaches (EventSourced.reaches_run _ _ _ _)⟩

/-- An import settles a pinned thread. -/
theorem not_unpinned_or_unsettled_of_reaches :
    ¬ ∀ model log, (commandModel plainRuntime).Reaches anyCommand
        (createEmptyReadModel "2026-03-01T12:00:00.000Z") model log →
      ∀ t ∈ model.threads, t.pinnedAt = none ∨ t.settledOverride ≠ some .settled := by
  intro h
  have hrun := h _ _ (EventSourced.reaches_run (commandModel plainRuntime) anyCommand
    (createEmptyReadModel "2026-03-01T12:00:00.000Z") pinThenImport)
  revert hrun
  decide

end Awen.Orchestration
