import Awen.Orchestration.ThreadReducer
import Awen.Orchestration.ThreadRuns
import Awen.Orchestration.ThreadTables

/-!
# Three folds of one log

The events that commands lead to are folded three times: into the read model that commands are
decided against, into the tables of the database, and into the threads that clients show.
`projectionModel` is the command model with the other two folds beside it. A thread is *live* until
it is deleted, and `live_of_eventThread` says how a live thread came about.
-/

namespace Awen.Orchestration

variable (js : JsRuntime)

/-- The thread that is left after the reducer has answered about one. -/
def ThreadDetailReducerResult.shown (thread : OrchestrationThread) :
    ThreadDetailReducerResult → Option OrchestrationThread
  | .updated thread => some thread
  | .deleted => none
  | .unchanged => some thread

/-- One event of a thread folded into the thread a client shows, if it shows one. A client that
does not have the thread takes it over from its creation. -/
def foldThreadDetail (occurredAt : IsoDateTime) (threadId : ThreadId)
    (payload : ThreadEventPayload) (thread : Option OrchestrationThread) :
    Option OrchestrationThread :=
  match thread, payload with
  | none, .created payload => some (createdThread threadId payload)
  | none, _ => none
  | some thread, payload =>
    (applyThreadDetailPayload js occurredAt threadId thread payload).shown thread

/-- **The read model, the tables, and the threads of clients.** -/
structure ThreadProjections where
  readModel : OrchestrationReadModel
  tables : ThreadTables := {}
  clients : ThreadId → Option OrchestrationThread := fun _ ↦ none

/-- Before any event. -/
def ThreadProjections.start (nowIso : IsoDateTime) : ThreadProjections where
  readModel := createEmptyReadModel nowIso

/-- One event folded into all three. -/
def ThreadProjections.evolve (reads : ℕ → ThreadReads) (s : ThreadProjections)
    (event : PlannedOrchestrationEvent) : ThreadProjections where
  readModel := (commandModel js).evolve s.readModel event
  tables := match event.payload with
    | .project .. => s.tables
    | .thread threadId payload =>
      applyThreadsProjection js (reads (s.readModel.snapshotSequence + 1))
        event.occurredAt threadId payload s.tables
  clients := match event.payload with
    | .project .. => s.clients
    | .thread threadId payload => Function.update s.clients threadId
        (foldThreadDetail js event.occurredAt threadId payload (s.clients threadId))

/-- **The command model with all three folds.** What the other tables of the database answer, at
each event, is left open. -/
def projectionModel (reads : ℕ → ThreadReads) : EventSourced ThreadProjections Dispatch
    PlannedOrchestrationEvent OrchestrationCommandRejection where
  prepare s dispatch := { s with readModel := resolveRepositoryIdentity s.readModel dispatch }
  decide s dispatch := (commandModel js).decide s.readModel dispatch
  evolve := ThreadProjections.evolve js reads

variable {js} {reads : ℕ → ThreadReads}

/-- No condition on commands. -/
def anyDispatch : ThreadProjections → Dispatch → Prop := fun _ _ ↦ True

instance (s : ThreadProjections) (dispatch : Dispatch) : Decidable (anyDispatch s dispatch) :=
  inferInstanceAs (Decidable True)

/-! ## Live threads -/

section Live

variable {projects : List OrchestrationProject} {occurredAt : IsoDateTime} {threadId : ThreadId}
  {payload : ThreadEventPayload}

/-- **Where a live thread comes from**: it was created just now, or it was live before. -/
theorem live_of_eventThread {thread : Option OrchestrationThread} {t : OrchestrationThread}
    (h : eventThread js projects occurredAt threadId payload thread = some t)
    (hlive : t.deletedAt = none) :
    (∃ created, payload = .created created ∧ t = createdThread threadId created) ∨
      ∃ t', thread = some t' ∧ t'.deletedAt = none ∧ payload.bounds = false ∧
        t = threadPatch js projects occurredAt t' payload t' := by
  cases payload
  case created created => exact .inl ⟨created, rfl, (Option.some_inj.mp h).symm⟩
  all_goals
    obtain ⟨t', ht', rfl⟩ := Option.map_eq_some_iff.mp h
    first
    | exact .inr ⟨t', ht', deletedAt_threadPatch hlive, rfl, rfl⟩
    | exact absurd hlive (by simp [threadPatch])

end Live

/-! ## One event -/

section Evolve

variable {s : ThreadProjections} {event : PlannedOrchestrationEvent} {threadId : ThreadId}
  {payload : ThreadEventPayload}

theorem clients_evolve (h : event.payload = .thread threadId payload) (k : ThreadId) :
    ((projectionModel js reads).evolve s event).clients k =
      if k = threadId then
        foldThreadDetail js event.occurredAt threadId payload (s.clients threadId)
      else s.clients k := by
  simp only [projectionModel, ThreadProjections.evolve, h, Function.update_apply]

theorem tables_evolve (h : event.payload = .thread threadId payload) :
    ((projectionModel js reads).evolve s event).tables = applyThreadsProjection js
      (reads (s.readModel.snapshotSequence + 1)) event.occurredAt threadId payload s.tables := by
  simp only [projectionModel, ThreadProjections.evolve, h]

theorem findThread_projections_evolve (h : event.payload = .thread threadId payload)
    (k : ThreadId) :
    findThread ((projectionModel js reads).evolve s event).readModel.threads k =
      if k = threadId then eventThread js s.readModel.projects event.occurredAt threadId payload
        (findThread s.readModel.threads threadId)
      else findThread s.readModel.threads k :=
  findThread_evolve h k

/-- **A relation between the three folds of every live thread is kept by an event** if it holds of
new threads, if events of other kinds keep it for their own thread, and if the tables keep it for
the threads that an event does not name. -/
theorem agreement_evolve
    {R : ThreadId → OrchestrationThread → ThreadTables → Option OrchestrationThread → Prop}
    (hcreated : ∀ reads occurredAt threadId created tables shown,
      R threadId (createdThread threadId created)
        (applyThreadsProjection js reads occurredAt threadId (.created created) tables)
        (foldThreadDetail js occurredAt threadId (.created created) shown))
    (hother : ∀ reads occurredAt threadId payload k t tables shown, k ≠ threadId →
      R k t tables shown →
      R k t (applyThreadsProjection js reads occurredAt threadId payload tables) shown)
    (hown : ∀ reads t shown, findThread s.readModel.threads threadId = some t →
      t.deletedAt = none → payload.bounds = false → R threadId t s.tables shown →
      R threadId (threadPatch js s.readModel.projects event.occurredAt t payload t)
        (applyThreadsProjection js reads event.occurredAt threadId payload s.tables)
        (foldThreadDetail js event.occurredAt threadId payload shown))
    (hpayload : event.payload = .thread threadId payload)
    (h : ∀ k t, findThread s.readModel.threads k = some t → t.deletedAt = none →
      R k t s.tables (s.clients k)) :
    ∀ k t, findThread ((projectionModel js reads).evolve s event).readModel.threads k = some t →
      t.deletedAt = none → R k t ((projectionModel js reads).evolve s event).tables
        (((projectionModel js reads).evolve s event).clients k) := by
  intro k t hfind hlive
  rw [findThread_projections_evolve hpayload] at hfind
  rw [tables_evolve hpayload, clients_evolve hpayload]
  by_cases hk : k = threadId
  · subst hk
    rw [if_pos rfl] at hfind ⊢
    obtain ⟨created, rfl, rfl⟩ | ⟨t', ht', hlive', hbounds, rfl⟩ := live_of_eventThread hfind hlive
    · exact hcreated _ _ _ _ _ _
    · exact hown _ _ _ ht' hlive' hbounds (h k t' ht' hlive')
  · rw [if_neg hk] at hfind ⊢
    exact hother _ _ _ _ _ _ _ _ hk (h k t hfind hlive)

end Evolve

/-- **A relation between the three folds of every live thread holds after each event of a run** if
it holds of new threads, if the events of the run keep it for their own thread, and if the tables
keep it for the threads that an event does not name. -/
theorem agreement_of_passes
    {R : ThreadId → OrchestrationThread → ThreadTables → Option OrchestrationThread → Prop}
    {meets : ThreadProjections → PlannedOrchestrationEvent → Prop}
    (hcreated : ∀ reads occurredAt threadId created tables shown,
      R threadId (createdThread threadId created)
        (applyThreadsProjection js reads occurredAt threadId (.created created) tables)
        (foldThreadDetail js occurredAt threadId (.created created) shown))
    (hother : ∀ reads occurredAt threadId payload k t tables shown, k ≠ threadId →
      R k t tables shown →
      R k t (applyThreadsProjection js reads occurredAt threadId payload tables) shown)
    (hown : ∀ s event threadId payload reads t shown, event.payload = .thread threadId payload →
      meets s event → findThread s.readModel.threads threadId = some t →
      payload.bounds = false → R threadId t s.tables shown →
      R threadId (threadPatch js s.readModel.projects event.occurredAt t payload t)
        (applyThreadsProjection js reads event.occurredAt threadId payload s.tables)
        (foldThreadDetail js event.occurredAt threadId payload shown))
    {ok : ThreadProjections → Dispatch → Prop}
    (hmeets : ∀ s dispatch events, ok s dispatch → (projectionModel js reads).decide
        ((projectionModel js reads).prepare s dispatch) dispatch = .ok events →
      EveryStep (projectionModel js reads).evolve meets
        ((projectionModel js reads).prepare s dispatch) events)
    {nowIso : IsoDateTime} {s : ThreadProjections} {log : List PlannedOrchestrationEvent}
    (h : (projectionModel js reads).Passes ok (.start nowIso) s log) :
    ∀ thread ∈ s.readModel.threads, thread.deletedAt = none →
      R thread.id thread s.tables (s.clients thread.id) := by
  obtain ⟨hdistinct, hagree⟩ : ThreadIdsDistinct s.readModel ∧
      ∀ k t, findThread s.readModel.threads k = some t → t.deletedAt = none →
        R k t s.tables (s.clients k) := by
    refine h.invariant (P := fun s ↦ ThreadIdsDistinct s.readModel ∧
        ∀ k t, findThread s.readModel.threads k = some t → t.deletedAt = none →
          R k t s.tables (s.clients k))
      ⟨List.nodup_nil, fun k t hfind ↦ nomatch hfind⟩ (fun s dispatch hs ↦ ?_) hmeets
      fun s event hs hevent ↦ ⟨hs.1.evolve event, ?_⟩
    · have hthreads := threads_resolveRepositoryIdentity s.readModel dispatch
      refine ⟨?_, fun k t hfind hlive ↦ hs.2 k t ?_ hlive⟩
      · rw [ThreadIdsDistinct, projectionModel, hthreads]
        exact hs.1
      · rw [← hthreads]
        exact hfind
    · cases hpayload : event.payload with
      | project projectId payload =>
        intro k t hfind hlive
        have hthreads : ((commandModel js).evolve s.readModel event).threads =
            s.readModel.threads := threads_evolve_project hpayload
        have hthread := hs.2 k t (by rw [← hthreads]; exact hfind) hlive
        simpa only [projectionModel, ThreadProjections.evolve, hpayload] using hthread
      | thread threadId payload =>
        exact agreement_evolve hcreated hother (fun reads t shown hfind _ ↦
          hown s event threadId payload reads t shown hpayload hevent hfind) hpayload hs.2
  exact fun thread hthread hlive ↦
    hagree thread.id thread (hdistinct.mem_threads_iff.mp hthread) hlive

end Awen.Orchestration
