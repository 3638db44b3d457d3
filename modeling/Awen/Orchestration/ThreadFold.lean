import Awen.Library.EventSourcing
import Awen.Orchestration.Decider

/-!
# The read model under commands

The command model as an event-sourced component, and what events do to one thread of it. A thread
is looked up by id; `findThread_evolve` says that an event changes the thread it names and no other,
and `findThread_fold` reads a fold of events of one thread as a fold over that thread alone,
`threadFold`.
-/

namespace Awen.Orchestration

variable (js : JsRuntime)

/-! ## The component -/

/-- A command as it reaches the decider: with the readings of the clock, and with what the engine
looked up for it. -/
structure Dispatch where
  command : OrchestrationCommand
  clock : ℕ → IsoDateTime
  /-- The durable activity of the request that the command is about. -/
  userInputActivity : Option OrchestrationThreadActivity := none
  /-- The repository of the thread's project, if the project has a shell. -/
  repositoryIdentity : Option (Option RepositoryIdentity) := none

/-- A legacy pull request edit needs the repository of the thread's project, which event-derived
projects do not carry. -/
def resolveRepositoryIdentity (model : OrchestrationReadModel) (dispatch : Dispatch) :
    OrchestrationReadModel :=
  match dispatch.command.body with
  | .thread threadId (.metaUpdate update) =>
    match update.linkedPullRequest, findThread model.threads threadId,
        dispatch.repositoryIdentity with
    | some _, some thread, some repositoryIdentity =>
      { model with projects := model.projects.map fun entry ↦
          if entry.id = thread.projectId then { entry with repositoryIdentity } else entry }
    | _, _, _ => model
  | _ => model

/-- **The command model**: commands decided against the read model, events folded into it. -/
def commandModel : EventSourced OrchestrationReadModel Dispatch PlannedOrchestrationEvent
    OrchestrationCommandRejection where
  prepare := resolveRepositoryIdentity
  decide model dispatch := decideOrchestrationCommand js model dispatch.clock
    dispatch.userInputActivity dispatch.command
  evolve model event := projectEvent js model { event with sequence := model.snapshotSequence + 1 }

@[simp] theorem threads_resolveRepositoryIdentity (model : OrchestrationReadModel)
    (dispatch : Dispatch) : (resolveRepositoryIdentity model dispatch).threads = model.threads := by
  simp only [resolveRepositoryIdentity]
  repeat' split
  all_goals rfl

/-! ## One thread -/

section Threads

variable {js}

theorem threadPatch_id (projects : List OrchestrationProject) (occurredAt : IsoDateTime)
    (thread entry : OrchestrationThread) (payload : ThreadEventPayload) :
    (threadPatch js projects occurredAt thread payload entry).id = entry.id := by
  cases payload
  case metaUpdated payload =>
    simp only [threadPatch]
    split <;> rfl
  case pullRequestSynced key snapshot stack updatedAt =>
    simp only [threadPatch]
    split <;> rfl
  case turnDiffCompleted checkpoint =>
    simp only [threadPatch, apply_ite OrchestrationThread.id, ite_self]
  all_goals simp only [threadPatch, pullRequestsPatch]

variable (js)

/-- What an event does to the thread it names, if there is one. -/
def eventThread (projects : List OrchestrationProject) (occurredAt : IsoDateTime)
    (threadId : ThreadId) (payload : ThreadEventPayload) (thread : Option OrchestrationThread) :
    Option OrchestrationThread :=
  match payload with
  | .created payload => some (createdThread threadId payload)
  | payload => thread.map fun t ↦ threadPatch js projects occurredAt t payload t

variable {js}

theorem findThread_eq_some {threads : List OrchestrationThread} {threadId : ThreadId}
    {t : OrchestrationThread} (h : findThread threads threadId = some t) :
    t ∈ threads ∧ t.id = threadId :=
  ⟨List.mem_of_find?_eq_some h, by simpa using List.find?_some h⟩

theorem findThread_updateThread (threads : List OrchestrationThread) (threadId k : ThreadId)
    {patch : OrchestrationThread → OrchestrationThread}
    (hpatch : ∀ t, t.id = threadId → (patch t).id = threadId) :
    findThread (updateThread threads threadId patch) k =
      if k = threadId then (findThread threads k).map patch else findThread threads k := by
  induction threads with
  | nil => simp [findThread, updateThread]
  | cons t threads ih =>
    simp only [findThread, updateThread] at ih ⊢
    rw [List.map_cons, List.find?_cons, List.find?_cons]
    by_cases ht : t.id = threadId
    · rw [if_pos ht, hpatch t ht, ht]
      by_cases hk : k = threadId
      · simp [hk]
      · simp only [show (decide (threadId = k)) = false from decide_eq_false (Ne.symm hk), ih]
    · rw [if_neg ht]
      by_cases hk : t.id = k
      · have hne : k ≠ threadId := fun h ↦ ht (hk.trans h)
        simp [hk, hne]
      · simp only [show (decide (t.id = k)) = false from decide_eq_false hk, ih]

theorem findThread_putThread (threads : List OrchestrationThread) (thread : OrchestrationThread)
    (k : ThreadId) :
    findThread (putThread threads thread) k =
      if k = thread.id then some thread else findThread threads k := by
  rw [putThread]
  by_cases hany : threads.any (·.id = thread.id)
  · rw [if_pos hany, findThread_updateThread _ _ _ fun _ _ ↦ rfl]
    by_cases hk : k = thread.id
    · obtain ⟨t, ht, hid⟩ := List.any_eq_true.mp hany
      have hsome : (findThread threads k).isSome := by
        rw [findThread, List.find?_isSome]
        exact ⟨t, ht, by simpa [hk] using hid⟩
      obtain ⟨t', ht'⟩ := Option.isSome_iff_exists.mp hsome
      rw [if_pos hk, if_pos hk, ht', Option.map_some]
    · rw [if_neg hk, if_neg hk]
  · have hnone : ∀ t ∈ threads, t.id ≠ thread.id := by simpa using hany
    rw [if_neg hany, findThread, List.find?_append]
    by_cases hk : k = thread.id
    · have hmissing : threads.find? (fun t ↦ decide (t.id = k)) = none := by
        rw [List.find?_eq_none]
        intro t ht
        simpa [hk] using hnone t ht
      rw [hmissing]
      simp [hk]
    · simp [findThread, hk, Ne.symm hk]

theorem projectThreadEvent_of_ne_created {payload : ThreadEventPayload}
    (h : ∀ p, payload ≠ .created p) (projects : List OrchestrationProject)
    (occurredAt : IsoDateTime) (threadId : ThreadId) (threads : List OrchestrationThread) :
    projectThreadEvent js projects occurredAt threadId payload threads =
      (findThread threads threadId).elim threads fun thread ↦
        updateThread threads threadId (threadPatch js projects occurredAt thread payload) := by
  cases payload
  case created payload => exact absurd rfl (h payload)
  all_goals
    simp only [projectThreadEvent]
    cases findThread threads threadId <;> rfl

/-- **An event changes the thread it names, and no other.** -/
theorem findThread_projectThreadEvent (projects : List OrchestrationProject)
    (occurredAt : IsoDateTime) (threadId k : ThreadId) (payload : ThreadEventPayload)
    (threads : List OrchestrationThread) :
    findThread (projectThreadEvent js projects occurredAt threadId payload threads) k =
      if k = threadId then
        eventThread js projects occurredAt threadId payload (findThread threads threadId)
      else findThread threads k := by
  have hpatched : ∀ payload : ThreadEventPayload,
      findThread ((findThread threads threadId).elim threads fun thread ↦
        updateThread threads threadId (threadPatch js projects occurredAt thread payload)) k =
      if k = threadId then (findThread threads threadId).map fun t ↦
        threadPatch js projects occurredAt t payload t else findThread threads k := by
    intro payload
    cases hthread : findThread threads threadId with
    | none =>
      rw [Option.elim_none]
      split
      · rename_i hk
        rw [hk, hthread, Option.map_none]
      · rfl
    | some thread =>
      rw [Option.elim_some, findThread_updateThread _ _ _ fun t ht ↦
        (threadPatch_id projects occurredAt thread t payload).trans ht]
      split
      · rename_i hk
        rw [hk, hthread, Option.map_some, Option.map_some]
      · rfl
  cases payload
  case created payload => exact findThread_putThread threads _ k
  all_goals
    rw [projectThreadEvent_of_ne_created (by simp)]
    exact hpatched _

/-- An event of a thread leaves the projects as they are. -/
theorem projects_evolve_thread {model : OrchestrationReadModel} {event : PlannedOrchestrationEvent}
    {threadId : ThreadId} {payload : ThreadEventPayload}
    (h : event.payload = .thread threadId payload) :
    ((commandModel js).evolve model event).projects = model.projects := by
  simp only [commandModel, projectEvent, h]

theorem findThread_evolve {model : OrchestrationReadModel} {event : PlannedOrchestrationEvent}
    {threadId : ThreadId} {payload : ThreadEventPayload}
    (h : event.payload = .thread threadId payload) (k : ThreadId) :
    findThread ((commandModel js).evolve model event).threads k =
      if k = threadId then eventThread js model.projects event.occurredAt threadId payload
        (findThread model.threads threadId)
      else findThread model.threads k := by
  simp only [commandModel, projectEvent, h]
  exact findThread_projectThreadEvent _ _ _ _ _ _

/-- An event of a project leaves the threads as they are. -/
theorem threads_evolve_project {model : OrchestrationReadModel} {event : PlannedOrchestrationEvent}
    {projectId : ProjectId} {payload : ProjectEventPayload}
    (h : event.payload = .project projectId payload) :
    ((commandModel js).evolve model event).threads = model.threads := by
  simp only [commandModel, projectEvent, h]

end Threads

/-! ## Events of one thread -/

/-- All events are events of one thread. -/
def EventsOf (threadId : ThreadId) (events : List PlannedOrchestrationEvent) : Prop :=
  ∀ event ∈ events, ∃ payload, event.payload = .thread threadId payload

/-- The fold of events over the thread they name. -/
def threadFold (projects : List OrchestrationProject) (threadId : ThreadId)
    (events : List PlannedOrchestrationEvent) (thread : Option OrchestrationThread) :
    Option OrchestrationThread :=
  events.foldl (fun thread event ↦
    match event.payload with
    | .thread _ payload => eventThread js projects event.occurredAt threadId payload thread
    | .project .. => thread) thread

section Folds

variable {js}

theorem EventsOf.head {threadId : ThreadId} {event : PlannedOrchestrationEvent}
    {events : List PlannedOrchestrationEvent} (h : EventsOf threadId (event :: events)) :
    ∃ payload, event.payload = .thread threadId payload :=
  h event List.mem_cons_self

theorem EventsOf.tail {threadId : ThreadId} {event : PlannedOrchestrationEvent}
    {events : List PlannedOrchestrationEvent} (h : EventsOf threadId (event :: events)) :
    EventsOf threadId events :=
  fun e he ↦ h e (List.mem_cons_of_mem _ he)

theorem EventsOf.projects_fold {threadId : ThreadId} {events : List PlannedOrchestrationEvent}
    (h : EventsOf threadId events) (model : OrchestrationReadModel) :
    ((commandModel js).fold model events).projects = model.projects := by
  induction events generalizing model with
  | nil => rfl
  | cons event events ih =>
    obtain ⟨payload, hpayload⟩ := h.head
    rw [EventSourced.fold_cons, ih h.tail, projects_evolve_thread hpayload]

/-- The other threads stay as they are. -/
theorem EventsOf.findThread_fold_of_ne {threadId k : ThreadId}
    {events : List PlannedOrchestrationEvent} (h : EventsOf threadId events) (hk : k ≠ threadId)
    (model : OrchestrationReadModel) :
    findThread ((commandModel js).fold model events).threads k = findThread model.threads k := by
  induction events generalizing model with
  | nil => rfl
  | cons event events ih =>
    obtain ⟨payload, hpayload⟩ := h.head
    rw [EventSourced.fold_cons, ih h.tail, findThread_evolve hpayload, if_neg hk]

/-- **Events of one thread are a fold over that thread.** -/
theorem EventsOf.findThread_fold {threadId : ThreadId} {events : List PlannedOrchestrationEvent}
    (h : EventsOf threadId events) (model : OrchestrationReadModel) :
    findThread ((commandModel js).fold model events).threads threadId =
      threadFold js model.projects threadId events (findThread model.threads threadId) := by
  induction events generalizing model with
  | nil => rfl
  | cons event events ih =>
    obtain ⟨payload, hpayload⟩ := h.head
    rw [EventSourced.fold_cons, ih h.tail, findThread_evolve hpayload, if_pos rfl,
      projects_evolve_thread hpayload]
    simp only [threadFold, List.foldl_cons, hpayload]

end Folds

/-! ## Distinct thread ids -/

/-- No two threads have the same id. -/
def ThreadIdsDistinct (model : OrchestrationReadModel) : Prop :=
  (model.threads.map (·.id)).Nodup

section Distinct

variable {js}

private theorem ids_updateThread (threads : List OrchestrationThread) (threadId : ThreadId)
    {patch : OrchestrationThread → OrchestrationThread}
    (hpatch : ∀ t, t.id = threadId → (patch t).id = threadId) :
    (updateThread threads threadId patch).map (·.id) = threads.map (·.id) := by
  rw [updateThread, List.map_map]
  apply List.map_congr_left
  intro t _
  simp only [Function.comp_apply]
  split
  · rename_i ht
    rw [hpatch t ht, ht]
  · rfl

private theorem nodup_putThread {threads : List OrchestrationThread} {thread : OrchestrationThread}
    (h : (threads.map (·.id)).Nodup) : ((putThread threads thread).map (·.id)).Nodup := by
  rw [putThread]
  split
  · rw [ids_updateThread threads thread.id fun _ _ ↦ rfl]
    exact h
  · rename_i hany
    have hnone : ∀ t ∈ threads, t.id ≠ thread.id := by simpa using hany
    rw [List.map_append, List.nodup_append]
    refine ⟨h, List.nodup_singleton _, ?_⟩
    intro a ha b hb
    obtain ⟨t, ht, rfl⟩ := List.mem_map.mp ha
    rw [List.mem_singleton.mp hb]
    exact hnone t ht

theorem ThreadIdsDistinct.evolve {model : OrchestrationReadModel} (h : ThreadIdsDistinct model)
    (event : PlannedOrchestrationEvent) :
    ThreadIdsDistinct ((commandModel js).evolve model event) := by
  have hpatched : ∀ threadId (payload : ThreadEventPayload), ThreadIdsDistinct { model with
      threads := (findThread model.threads threadId).elim model.threads fun thread ↦
        updateThread model.threads threadId
          (threadPatch js model.projects event.occurredAt thread payload) } := by
    intro threadId payload
    rw [ThreadIdsDistinct]
    cases findThread model.threads threadId with
    | none => exact h
    | some thread =>
      rw [Option.elim_some,
        ids_updateThread _ _ fun t ht ↦ (threadPatch_id _ _ thread t payload).trans ht]
      exact h
  cases hpayload : event.payload with
  | project projectId payload =>
    rw [ThreadIdsDistinct, threads_evolve_project hpayload]
    exact h
  | thread threadId payload =>
    rw [ThreadIdsDistinct]
    simp only [commandModel, projectEvent, hpayload]
    cases payload
    case created payload => exact nodup_putThread h
    all_goals
      rw [projectThreadEvent_of_ne_created (by simp)]
      exact hpatched threadId _

/-- The threads of a read model are those that are found by their ids. -/
theorem ThreadIdsDistinct.mem_threads_iff {model : OrchestrationReadModel}
    (h : ThreadIdsDistinct model) {t : OrchestrationThread} :
    t ∈ model.threads ↔ findThread model.threads t.id = some t := by
  constructor
  · intro ht
    rw [ThreadIdsDistinct] at h
    generalize model.threads = threads at h ht
    induction threads with
    | nil => cases ht
    | cons s threads ih =>
      rw [findThread, List.find?_cons]
      rw [List.map_cons, List.nodup_cons] at h
      rcases List.mem_cons.mp ht with rfl | ht'
      · simp
      · have hne : s.id ≠ t.id := fun heq ↦ h.1 (heq ▸ List.mem_map_of_mem ht')
        simp only [show (decide (s.id = t.id)) = false from decide_eq_false hne]
        exact ih h.2 ht'
  · exact fun ht ↦ (findThread_eq_some ht).1

/-- **Thread ids are distinct in every read model that commands lead to.** -/
theorem threadIdsDistinct_of_reaches {ok : OrchestrationReadModel → Dispatch → Prop}
    {nowIso : IsoDateTime} {model : OrchestrationReadModel} {log : List PlannedOrchestrationEvent}
    (h : (commandModel js).Reaches ok (createEmptyReadModel nowIso) model log) :
    ThreadIdsDistinct model := by
  refine h.invariant List.nodup_nil fun s dispatch events hs _ _ ↦ ?_
  refine EventSourced.fold_invariant (P := ThreadIdsDistinct) (E := fun _ ↦ True)
    (fun m e hm _ ↦ hm.evolve e) (fun _ _ ↦ trivial) ?_
  rw [ThreadIdsDistinct, commandModel, threads_resolveRepositoryIdentity]
  exact hs

end Distinct

end Awen.Orchestration
