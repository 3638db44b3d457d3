import Awen.Orchestration.ThreadRuns

/-!
# Projects, their threads and their roots

Deletion is a mark, so a precondition has to say whether a deleted project counts. The root of a
project is checked against live projects only, and live projects have distinct roots in every run:
`rootsDistinct_of_reaches`. A project is deleted after its threads, so a live thread keeps a live
project; but a new thread may name a deleted one. `liveProjects_of_reaches` says what holds if none
does, and `createInDeletedProject` is a run in which one does.
-/

namespace Awen.Orchestration

variable {js : JsRuntime}

/-! ## Single events -/

theorem findProject_eq_some {projects : List OrchestrationProject} {projectId : ProjectId}
    {p : OrchestrationProject} (h : findProject projects projectId = some p) :
    p ∈ projects ∧ p.id = projectId :=
  ⟨List.mem_of_find?_eq_some h, by simpa using List.find?_some h⟩

theorem findProject_map {f : OrchestrationProject → OrchestrationProject}
    (hf : ∀ p, (f p).id = p.id) (projects : List OrchestrationProject) (k : ProjectId) :
    findProject (projects.map f) k = (findProject projects k).map f := by
  rw [findProject, List.find?_map, findProject]
  congr 2
  funext p
  rw [Function.comp_apply, hf]

/-- There is a live project with an id. -/
def LiveProject (projects : List OrchestrationProject) (projectId : ProjectId) : Prop :=
  ∃ p, findProject projects projectId = some p ∧ p.deletedAt = none

theorem LiveProject.map {projects : List OrchestrationProject} {k : ProjectId}
    (h : LiveProject projects k) {f : OrchestrationProject → OrchestrationProject}
    (hf : ∀ p, (f p).id = p.id) (hlive : ∀ p, p.id = k → p.deletedAt = none →
      (f p).deletedAt = none) : LiveProject (projects.map f) k := by
  obtain ⟨p, hp, hdeletedAt⟩ := h
  refine ⟨f p, ?_, hlive p (findProject_eq_some hp).2 hdeletedAt⟩
  rw [findProject_map hf, hp, Option.map_some]

/-- A live project stays live under every event but its own deletion. -/
theorem LiveProject.projectProjectEvent {projectId k : ProjectId} {payload : ProjectEventPayload}
    {projects : List OrchestrationProject} (h : LiveProject projects k)
    (hpayload : (∀ at', payload ≠ .deleted at') ∨ k ≠ projectId) :
    LiveProject (projectProjectEvent projectId payload projects) k := by
  cases payload with
  | created payload =>
    simp only [Orchestration.projectProjectEvent]
    split
    · refine h.map (fun p ↦ ?_) fun p _ hdeletedAt ↦ ?_
      · split
        · rename_i hid
          exact hid.symm
        · rfl
      · split
        · rfl
        · exact hdeletedAt
    · obtain ⟨p, hp, hdeletedAt⟩ := h
      rw [findProject] at hp
      exact ⟨p, by rw [findProject, List.find?_append, hp, Option.some_or], hdeletedAt⟩
  | metaUpdated payload =>
    refine h.map (fun p ↦ ?_) fun p _ hdeletedAt ↦ ?_ <;> split
    all_goals first | rfl | exact hdeletedAt
  | deleted at' =>
    have hk := hpayload.resolve_left fun h ↦ h at' rfl
    refine h.map (fun p ↦ ?_) fun p hid hdeletedAt ↦ ?_
    · split <;> rfl
    · rw [if_neg (hid.trans_ne hk)]
      exact hdeletedAt

theorem projectId_threadPatch {projects : List OrchestrationProject} {occurredAt : IsoDateTime}
    {thread entry : OrchestrationThread} {payload : ThreadEventPayload} :
    (threadPatch js projects occurredAt thread payload entry).projectId = entry.projectId := by
  cases payload <;> simp only [threadPatch, pullRequestsPatch]
  case metaUpdated => split <;> rfl
  case pullRequestSynced => split <;> rfl
  case turnDiffCompleted => split <;> rfl

/-! ## Live threads and their projects -/

/-- Every live thread has a live project. -/
def LiveProjects (model : OrchestrationReadModel) : Prop :=
  ∀ k t, findThread model.threads k = some t → t.deletedAt = none →
    LiveProject model.projects t.projectId

/-- If the command creates a thread, its project is not deleted. -/
def createsInLiveProject : CommandCondition := fun model dispatch ↦
  match dispatch.command.body with
  | .thread _ (.create create) =>
    (findProject model.projects create.projectId).all (·.deletedAt.isNone) = true
  | _ => True

instance (model : OrchestrationReadModel) (dispatch : Dispatch) :
    Decidable (createsInLiveProject model dispatch) :=
  decidable_of_iff
    ((match dispatch.command.body with
      | .thread _ (.create create) =>
        (findProject model.projects create.projectId).all (·.deletedAt.isNone)
      | _ => true) = true)
    (by unfold createsInLiveProject; split <;> simp)

theorem LiveProjects.resolveRepositoryIdentity {model : OrchestrationReadModel}
    (h : LiveProjects model) (dispatch : Dispatch) :
    LiveProjects (resolveRepositoryIdentity model dispatch) := by
  intro k t ht hlive
  rw [threads_resolveRepositoryIdentity] at ht
  have hproject := h k t ht hlive
  simp only [Orchestration.resolveRepositoryIdentity]
  split
  · split
    · refine hproject.map (fun p ↦ ?_) fun p _ hdeletedAt ↦ ?_ <;> split
      all_goals first | rfl | exact hdeletedAt
    · exact hproject
  · exact hproject

/-- A thread event other than a creation keeps live projects under live threads. -/
theorem LiveProjects.evolve_thread {model : OrchestrationReadModel} (h : LiveProjects model)
    {event : PlannedOrchestrationEvent} {threadId : ThreadId} {payload : ThreadEventPayload}
    (hpayload : event.payload = .thread threadId payload)
    (hcreated : ∀ created, payload = .created created →
      LiveProject model.projects created.projectId) :
    LiveProjects ((commandModel js).evolve model event) := by
  intro k t ht hlive
  rw [findThread_evolve hpayload] at ht
  rw [projects_evolve_thread hpayload]
  split at ht
  · cases payload
    case created created =>
      obtain rfl := Option.some_inj.mp ht
      exact hcreated created rfl
    all_goals
      obtain ⟨t', ht', rfl⟩ := Option.map_eq_some_iff.mp ht
      rw [projectId_threadPatch]
      exact h _ t' ht' (deletedAt_threadPatch hlive)
  · exact h k t ht hlive

theorem LiveProjects.evolve_project {model : OrchestrationReadModel} (h : LiveProjects model)
    {event : PlannedOrchestrationEvent} {projectId : ProjectId} {payload : ProjectEventPayload}
    (hevent : event.payload = .project projectId payload)
    (hpayload : (∀ at', payload ≠ .deleted at') ∨ activeThreads model projectId = []) :
    LiveProjects ((commandModel js).evolve model event) := by
  intro k t ht hlive
  rw [threads_evolve_project hevent] at ht
  have hprojects : ((commandModel js).evolve model event).projects =
      projectProjectEvent projectId payload model.projects := by
    simp only [commandModel, projectEvent, hevent]
  rw [hprojects]
  refine (h k t ht hlive).projectProjectEvent (hpayload.imp_right fun hempty hid ↦ ?_)
  have hmem : t ∈ activeThreads model projectId := by
    simp [activeThreads, listThreadsByProjectId, (findThread_eq_some ht).1, hid, hlive]
  rw [hempty] at hmem
  cases hmem

/-- Only one command creates a thread, and it names a project that exists. -/
private theorem created_of_planned {model : OrchestrationReadModel} {clock : ℕ → IsoDateTime}
    {userInputActivity : Option OrchestrationThreadActivity} {commandId : CommandId}
    {threadId : ThreadId} {command : ThreadCommand} {events : List PlannedOrchestrationEvent}
    (h : decideOrchestrationCommand js model clock userInputActivity
      ⟨commandId, .thread threadId command⟩ = .ok events) :
    "thread.created" ∉ command.emits ∨ ∃ create created project occurredAt metadata,
      command = .create create ∧ created.projectId = create.projectId ∧
      findProject model.projects create.projectId = some project ∧
      events = [threadEvent commandId threadId occurredAt (.created created) metadata] := by
  cases command
  case create create =>
    simp only [decideOrchestrationCommand, decideWith, decideThreadCommand, decideThreadCreate,
      requireProject_bind_eq_ok, requireThreadAbsent_bind_eq_ok, pure_eq_ok] at h
    obtain ⟨project, hproject, -, rfl⟩ := h
    exact .inr ⟨create, _, project, _, _, rfl, rfl, hproject, rfl⟩
  all_goals exact .inl (by simp [ThreadCommand.emits])

/-- The events of a thread command keep live projects under live threads. -/
private theorem liveProjects_fold_thread {model : OrchestrationReadModel} (h : LiveProjects model)
    {commandId : CommandId} {threadId : ThreadId} {types : List String}
    {events : List PlannedOrchestrationEvent} (htypes : "thread.created" ∉ types)
    (hevents : ∀ event ∈ events, Planned commandId threadId types event) :
    LiveProjects ((commandModel js).fold model events) := by
  refine EventSourced.fold_invariant (P := LiveProjects) (fun m event hm hevent ↦ ?_) hevents h
  obtain ⟨payload, hpayload, htype⟩ := Planned.payload hevent
  refine hm.evolve_thread hpayload fun created hcreated ↦ ?_
  rw [hcreated] at htype
  exact absurd htype htypes

/-- **Live threads have live projects**, in every run that creates no thread in a deleted
project. -/
theorem liveProjects_of_reaches {nowIso : IsoDateTime} {model : OrchestrationReadModel}
    {log : List PlannedOrchestrationEvent}
    (h : (commandModel js).Reaches createsInLiveProject (createEmptyReadModel nowIso) model log) :
    LiveProjects model := by
  refine h.invariant (P := LiveProjects) (fun k t ht ↦ nomatch ht)
    fun model dispatch events hmodel hok hdecided ↦ ?_
  have hprepared := hmodel.resolveRepositoryIdentity dispatch
  obtain ⟨⟨commandId, body⟩, clock, userInputActivity, repositoryIdentity⟩ := dispatch
  cases body with
  | project projectId command =>
    obtain ⟨_, payload, hpayload, rfl⟩ | ⟨deletions, now, rfl, hdeletions, hempty⟩ :=
      decide_project_eq_ok hdecided
    · exact hprepared.evolve_project rfl (.inl hpayload)
    · rw [EventSourced.fold_append]
      refine LiveProjects.evolve_project ?_ rfl (.inr hempty)
      refine EventSourced.fold_invariant (P := LiveProjects) (fun m event hm hevent ↦ ?_)
        hdeletions hprepared
      obtain ⟨threadId, at', rfl⟩ := hevent
      exact hm.evolve_thread rfl fun _ hcreated ↦ nomatch hcreated
  | thread threadId command =>
    obtain htypes | ⟨create, created, project, _, _, rfl, hid, hproject, rfl⟩ :=
      created_of_planned hdecided
    · exact liveProjects_fold_thread hprepared htypes (planned_of_decide hdecided)
    · refine hprepared.evolve_thread rfl fun created' hcreated ↦ ?_
      obtain rfl := ThreadEventPayload.created.inj hcreated
      rw [hid]
      refine ⟨project, hproject, ?_⟩
      have hfind : findProject model.projects create.projectId = some project := hproject
      simpa [createsInLiveProject, hfind] using hok

/-! ## Distinct roots -/

/-- Project ids are distinct, and live projects with the same root are the same. -/
structure RootsDistinct (js : JsRuntime) (projects : List OrchestrationProject) : Prop where
  ids : (projects.map (·.id)).Nodup
  roots : ∀ p ∈ projects, ∀ q ∈ projects, p.deletedAt = none → q.deletedAt = none →
    normalizeProjectPathForComparison js p.workspaceRoot =
      normalizeProjectPathForComparison js q.workspaceRoot → p.id = q.id

/-- A map over projects that keeps ids and roots, and brings no project back. -/
theorem RootsDistinct.map {projects : List OrchestrationProject} (h : RootsDistinct js projects)
    {f : OrchestrationProject → OrchestrationProject} (hid : ∀ p, (f p).id = p.id)
    (hroot : ∀ p, (f p).deletedAt = none →
      p.deletedAt = none ∧ (f p).workspaceRoot = p.workspaceRoot) :
    RootsDistinct js (projects.map f) where
  ids := by
    rw [List.map_map]
    simpa only [Function.comp_def, hid] using h.ids
  roots := by
    simp only [List.forall_mem_map, hid]
    intro p hp q hq hpf hqf hroots
    obtain ⟨hpd, hpr⟩ := hroot p hpf
    obtain ⟨hqd, hqr⟩ := hroot q hqf
    rw [hpr, hqr] at hroots
    exact h.roots p hp q hq hpd hqd hroots

theorem RootsDistinct.resolveRepositoryIdentity {model : OrchestrationReadModel}
    (h : RootsDistinct js model.projects) (dispatch : Dispatch) :
    RootsDistinct js (resolveRepositoryIdentity model dispatch).projects := by
  simp only [Orchestration.resolveRepositoryIdentity]
  split
  · split
    · refine h.map (fun p ↦ ?_) fun p hp ↦ ?_
      · split <;> rfl
      · split at hp
        · rename_i hid
          rw [if_pos hid]
          exact ⟨hp, rfl⟩
        · rename_i hid
          rw [if_neg hid]
          exact ⟨hp, rfl⟩
    · exact h
  · exact h

/-- A new project is new by its id, and no live project is at its root. -/
theorem RootsDistinct.created {projects : List OrchestrationProject} (h : RootsDistinct js projects)
    {projectId : ProjectId} {payload : ProjectCreatedPayload}
    (habsent : findProject projects projectId = none)
    (hroot : ∀ p ∈ projects, p.deletedAt = none →
      normalizeProjectPathForComparison js p.workspaceRoot =
        normalizeProjectPathForComparison js payload.workspaceRoot → p.id = projectId) :
    RootsDistinct js (projectProjectEvent projectId (.created payload) projects) := by
  have hnew : ∀ p ∈ projects, p.id ≠ projectId := by
    simpa [findProject] using habsent
  simp only [projectProjectEvent]
  rw [if_neg (by simpa using hnew)]
  constructor
  · rw [List.map_append, List.nodup_append]
    refine ⟨h.ids, List.nodup_singleton _, ?_⟩
    intro a ha b hb
    obtain ⟨p, hp, rfl⟩ := List.mem_map.mp ha
    rw [List.mem_singleton.mp hb]
    exact hnew p hp
  · intro p hp q hq hpd hqd hroots
    rcases List.mem_append.mp hp with hp | hp <;> rcases List.mem_append.mp hq with hq | hq
    · exact h.roots p hp q hq hpd hqd hroots
    · obtain rfl := List.mem_singleton.mp hq
      exact hroot p hp hpd hroots
    · obtain rfl := List.mem_singleton.mp hp
      exact (hroot q hq hqd hroots.symm).symm
    · rw [List.mem_singleton.mp hp, List.mem_singleton.mp hq]

/-- A new root of a project is the root of no other live project. -/
theorem RootsDistinct.metaUpdated {projects : List OrchestrationProject}
    (h : RootsDistinct js projects) {projectId : ProjectId} {payload : ProjectMetaUpdatedPayload}
    (hroot : ∀ root, payload.workspaceRoot = some root → ∀ p ∈ projects, p.deletedAt = none →
      normalizeProjectPathForComparison js p.workspaceRoot =
        normalizeProjectPathForComparison js root → p.id = projectId) :
    RootsDistinct js (projectProjectEvent projectId (.metaUpdated payload) projects) := by
  cases hnew : payload.workspaceRoot with
  | none =>
    refine h.map (fun p ↦ ?_) fun p hp ↦ ?_
    · split <;> rfl
    · split at hp
      · rename_i hid
        rw [if_pos hid, hnew]
        exact ⟨hp, rfl⟩
      · rename_i hid
        rw [if_neg hid]
        exact ⟨hp, rfl⟩
  | some root =>
    have hother := hroot root hnew
    constructor
    · simp only [projectProjectEvent, List.map_map]
      convert h.ids using 2
      funext p
      simp only [Function.comp_apply]
      split <;> rfl
    · simp only [projectProjectEvent, List.forall_mem_map]
      intro p hp q hq
      by_cases hpid : p.id = projectId <;> by_cases hqid : q.id = projectId
      · simp [hpid, hqid]
      · simp only [if_pos hpid, if_neg hqid, hnew, Option.getD_some]
        intro _ hqd hroots
        exact absurd (hother q hq hqd hroots.symm) hqid
      · simp only [if_neg hpid, if_pos hqid, hnew, Option.getD_some]
        intro hpd _ hroots
        exact absurd (hother p hp hpd hroots) hpid
      · simp only [if_neg hpid, if_neg hqid]
        exact h.roots p hp q hq

theorem RootsDistinct.deleted {projects : List OrchestrationProject}
    (h : RootsDistinct js projects) (projectId : ProjectId) (at' : IsoDateTime) :
    RootsDistinct js (projectProjectEvent projectId (.deleted at') projects) := by
  refine h.map (fun p ↦ ?_) fun p hp ↦ ?_
  · split <;> rfl
  · split at hp
    · cases hp
    · rename_i hid
      rw [if_neg hid]
      exact ⟨hp, rfl⟩

theorem projects_evolve_project {model : OrchestrationReadModel} {event : PlannedOrchestrationEvent}
    {projectId : ProjectId} {payload : ProjectEventPayload}
    (h : event.payload = .project projectId payload) :
    ((commandModel js).evolve model event).projects =
      projectProjectEvent projectId payload model.projects := by
  simp only [commandModel, projectEvent, h]

/-- The events of a project command keep roots distinct. -/
private theorem rootsDistinct_fold_project {model : OrchestrationReadModel}
    (h : RootsDistinct js model.projects) {clock : ℕ → IsoDateTime}
    {userInputActivity : Option OrchestrationThreadActivity} {commandId : CommandId}
    {projectId : ProjectId} {command : ProjectCommand} {events : List PlannedOrchestrationEvent}
    (hdecided : decideOrchestrationCommand js model clock userInputActivity
      ⟨commandId, .project projectId command⟩ = .ok events) :
    RootsDistinct js ((commandModel js).fold model events).projects := by
  cases command with
  | create title workspaceRoot createdAt =>
    simp only [decideOrchestrationCommand, decideWith, decideProjectCommand,
      requireProjectAbsent_bind_eq_ok] at hdecided
    obtain ⟨habsent, hdecided⟩ := hdecided
    obtain ⟨_, hroot, hdecided⟩ := bind_eq_ok.mp hdecided
    obtain rfl := pure_eq_ok.mp hdecided
    rw [EventSourced.fold_cons, EventSourced.fold_nil, projects_evolve_project rfl]
    exact h.created habsent (requireActiveProjectWorkspaceRootAbsent_eq_ok.mp hroot)
  | metaUpdate update =>
    simp only [decideOrchestrationCommand, decideWith, decideProjectCommand,
      decideProjectMetaUpdate, requireProject_bind_eq_ok, ensure_bind_eq_ok] at hdecided
    obtain ⟨project, -, -, hdecided⟩ := hdecided
    split at hdecided
    · cases hdecided
    obtain ⟨_, hroot, hdecided⟩ := bind_eq_ok.mp hdecided
    obtain rfl := pure_eq_ok.mp hdecided
    rw [EventSourced.fold_cons, EventSourced.fold_nil, projects_evolve_project rfl]
    refine h.metaUpdated fun root hnew ↦ ?_
    have hnew' : update.workspaceRoot = some root := hnew
    rw [hnew'] at hroot
    exact requireActiveProjectWorkspaceRootAbsent_eq_ok.mp hroot
  | delete force =>
    obtain ⟨deletions, now, rfl, hdeletions, -⟩ := decide_projectDelete_eq_ok hdecided
    rw [EventSourced.fold_append, EventSourced.fold_cons, EventSourced.fold_nil,
      projects_evolve_project rfl]
    refine RootsDistinct.deleted ?_ projectId now
    refine EventSourced.fold_invariant
      (P := fun m : OrchestrationReadModel ↦ RootsDistinct js m.projects)
      (fun m event hm hevent ↦ ?_) hdeletions h
    obtain ⟨threadId, at', rfl⟩ := hevent
    rw [projects_evolve_thread rfl]
    exact hm

/-- **Live projects have distinct roots** in every reachable read model. -/
theorem rootsDistinct_of_reaches {ok : CommandCondition} {nowIso : IsoDateTime}
    {model : OrchestrationReadModel} {log : List PlannedOrchestrationEvent}
    (h : (commandModel js).Reaches ok (createEmptyReadModel nowIso) model log) :
    RootsDistinct js model.projects := by
  refine h.invariant (P := fun model : OrchestrationReadModel ↦ RootsDistinct js model.projects)
    ⟨List.nodup_nil, fun p hp ↦ nomatch hp⟩ fun model dispatch events hmodel _ hdecided ↦ ?_
  have hprepared := hmodel.resolveRepositoryIdentity dispatch
  obtain ⟨⟨commandId, body⟩, clock, userInputActivity, repositoryIdentity⟩ := dispatch
  cases body with
  | project projectId command => exact rootsDistinct_fold_project hprepared hdecided
  | thread threadId command =>
    rw [(eventsOf_of_decide hdecided).projects_fold]
    exact hprepared

/-! ## Both together -/

/-- Live threads belong to live projects, and live projects have distinct roots. -/
structure ProjectsConsistent (js : JsRuntime) (model : OrchestrationReadModel) : Prop where
  live : ∀ t ∈ model.threads, t.deletedAt = none →
    ∃ p ∈ model.projects, p.id = t.projectId ∧ p.deletedAt = none
  roots : model.projects.Pairwise fun p q ↦ p.deletedAt = none → q.deletedAt = none →
    normalizeProjectPathForComparison js p.workspaceRoot ≠
      normalizeProjectPathForComparison js q.workspaceRoot

/-- **Live threads belong to live projects, and live projects have distinct roots**, in every run
that creates no thread in a deleted project. -/
theorem projectsConsistent_of_reaches {nowIso : IsoDateTime} {model : OrchestrationReadModel}
    {log : List PlannedOrchestrationEvent}
    (h : (commandModel js).Reaches createsInLiveProject (createEmptyReadModel nowIso) model log) :
    ProjectsConsistent js model where
  live t ht hlive := by
    obtain ⟨p, hp, hdeletedAt⟩ := liveProjects_of_reaches h t.id t
      ((threadIdsDistinct_of_reaches h).mem_threads_iff.mp ht) hlive
    obtain ⟨hmem, hid⟩ := findProject_eq_some hp
    exact ⟨p, hmem, hid, hdeletedAt⟩
  roots := by
    have hdistinct := rootsDistinct_of_reaches h
    refine (List.pairwise_map.mp hdistinct.ids).imp_of_mem ?_
    intro p q hp hq hid hpd hqd hroots
    exact hid (hdistinct.roots p hp q hq hpd hqd hroots)

theorem projectsConsistent_of_reaches_create :
    ProjectsConsistent plainRuntime ((commandModel plainRuntime).run createsInLiveProject
      (createEmptyReadModel "2026-03-01T12:00:00.000Z") createProjectAndThread).1 :=
  projectsConsistent_of_reaches (EventSourced.reaches_run _ _ _ _)

/-! ## A run that creates a thread in a deleted project -/

/-- Create a project, delete it, and create a thread in it. -/
def createInDeletedProject : List Dispatch :=
  [dispatchAt "2026-03-01T12:00:00.000Z" "c1"
      (.project "p" (.create "P" "/p" "2026-03-01T12:00:00.000Z")),
    dispatchAt "2026-03-01T12:00:01.000Z" "c2" (.project "p" (.delete false)),
    dispatchAt "2026-03-01T12:00:02.000Z" "c3" (.thread "t" (.create {
      projectId := "p", title := "T", modelSelection := .null, runtimeMode := .auto
      interactionMode := .default, branch := none, worktreePath := none
      createdAt := "2026-03-01T12:00:02.000Z" }))]

/-- A live thread of a deleted project is reached. -/
theorem not_projectsConsistent_of_reaches :
    ¬ ∀ model log, (commandModel plainRuntime).Reaches anyCommand
        (createEmptyReadModel "2026-03-01T12:00:00.000Z") model log →
      ProjectsConsistent plainRuntime model := by
  intro h
  have hlive := (h _ _ (EventSourced.reaches_run (commandModel plainRuntime) anyCommand
    (createEmptyReadModel "2026-03-01T12:00:00.000Z") createInDeletedProject)).live
  revert hlive
  decide

end Awen.Orchestration
