import Awen.Orchestration.ProjectRuns

/-!
# Titles given by the user

A rename makes the title manual, and a generated title does not replace a manual one. Only the user
can give it up, by asking for a new title: from then on `titleState` names the request as the source
of the title. `manualTitle_stays` says what can end a manual title; the title can go without a
completed regeneration only by a generation that expects exactly what a request has left.
-/

namespace Awen.Orchestration

variable {js : JsRuntime}

/-- The requests for a new title of a thread, by command id. -/
def titleRequest? (threadId : ThreadId) (dispatch : Dispatch) : Option CommandId :=
  match dispatch.command.body with
  | .thread k (.metaUpdate update) =>
    if k = threadId ∧ update.regenerateTitle = true then some dispatch.command.commandId else none
  | _ => none

/-- The commands that can replace the title of a thread, given the requests for a new title that
were made since the title was set. -/
inductive ReplacesTitle (threadId : ThreadId) (requests : List CommandId)
    (thread : OrchestrationThread) : OrchestrationCommandBody → Prop
  /-- The user sets another title. -/
  | renamed (update : ThreadMetaUpdate) (title : update.title.isSome = true) :
    ReplacesTitle threadId requests thread (.thread threadId (.metaUpdate update))
  /-- A regeneration that was requested since completes, and its request is current. -/
  | regenerated (requestId : CommandId) (title : String) (requested : requestId ∈ requests)
    (current : thread.titleRegeneration.map (·.requestId) = some requestId) :
    ReplacesTitle threadId requests thread
      (.thread threadId (.titleRegenerationComplete requestId (some title)))
  /-- A generation completes that expects what a request has left which is not pending any more. -/
  | generated (requestId : CommandId) (title : String) (needsRefinement : Bool)
    (requested : requestId ∈ requests)
    (left : thread.titleState = some ⟨.generated, requestId, false⟩)
    (pending : thread.titleRegeneration = none) :
    ReplacesTitle threadId requests thread (.thread threadId
      (.titleGenerateComplete thread.title (some requestId) title needsRefinement))
  /-- The thread was deleted and is created anew. -/
  | created (create : ThreadCreate) :
    ReplacesTitle threadId requests thread (.thread threadId (.create create))

/-- What holds of a thread as long as its manual title stays. -/
structure KeepsTitle (title : String) (requests : List CommandId) (thread : OrchestrationThread) :
    Prop where
  title : thread.title = title
  source : thread.titleState.any (·.source = .manual) = true ∨
    ∃ requestId ∈ requests, thread.titleState = some ⟨.generated, requestId, false⟩
  regeneration : ∀ r, thread.titleRegeneration = some r → r.requestId ∈ requests

/-! ## Single events -/

section Events

variable {projects : List OrchestrationProject} {occurredAt : IsoDateTime} {title : String}
  {requests requests' : List CommandId} {thread : OrchestrationThread}

theorem KeepsTitle.mono (h : KeepsTitle title requests thread) (hrequests : requests ⊆ requests') :
    KeepsTitle title requests' thread where
  title := h.title
  source := h.source.imp_right fun ⟨r, hr, hstate⟩ ↦ ⟨r, hrequests hr, hstate⟩
  regeneration r hr := hrequests (h.regeneration r hr)

/-- An event that is no metadata update leaves the title, or only drops a pending request. -/
theorem KeepsTitle.threadPatch (h : KeepsTitle title requests thread)
    {payload : ThreadEventPayload} (hpayload : payload.type ≠ "thread.meta-updated") :
    KeepsTitle title requests (threadPatch js projects occurredAt thread payload thread) := by
  cases payload
  case metaUpdated => exact absurd rfl hpayload
  case archived => exact ⟨h.title, h.source, fun r hr ↦ nomatch hr⟩
  case pullRequestSynced =>
    simp only [Orchestration.threadPatch]
    split
    · exact ⟨h.title, h.source, h.regeneration⟩
    · exact h
  case turnDiffCompleted =>
    simp only [Orchestration.threadPatch]
    split
    · exact h
    · exact ⟨h.title, h.source, h.regeneration⟩
  all_goals
    simp only [Orchestration.threadPatch, pullRequestsPatch]
    exact ⟨h.title, h.source, h.regeneration⟩

/-- What a metadata update makes of the fields of the title. -/
theorem title_metaUpdated (js : JsRuntime) (projects : List OrchestrationProject)
    (occurredAt : IsoDateTime) (thread : OrchestrationThread) (payload : ThreadMetaUpdatedPayload) :
    (Orchestration.threadPatch js projects occurredAt thread (.metaUpdated payload) thread).title =
        payload.title.getD thread.title ∧
      (Orchestration.threadPatch js projects occurredAt thread (.metaUpdated payload)
        thread).titleState = payload.titleState.getD thread.titleState ∧
      (Orchestration.threadPatch js projects occurredAt thread (.metaUpdated payload)
        thread).titleRegeneration = payload.titleRegeneration.getD thread.titleRegeneration := by
  simp only [Orchestration.threadPatch]
  split <;> exact ⟨rfl, rfl, rfl⟩

/-- A metadata update that says nothing about the title, or asks for a new one. -/
theorem KeepsTitle.metaUpdated (h : KeepsTitle title requests thread)
    {payload : ThreadMetaUpdatedPayload} (htitle : payload.title = none)
    (hrequests : requests ⊆ requests')
    (hstate : payload.titleState = none ∨
      ∃ r ∈ requests', payload.titleState = some (some ⟨.generated, r, false⟩))
    (hregeneration : ∀ r, payload.titleRegeneration = some (some r) → r.requestId ∈ requests') :
    KeepsTitle title requests'
      (Orchestration.threadPatch js projects occurredAt thread (.metaUpdated payload) thread) := by
  obtain ⟨ht, hs, hr⟩ := title_metaUpdated js projects occurredAt thread payload
  refine ⟨?_, ?_, ?_⟩
  · rw [ht, htitle, Option.getD_none, h.title]
  · rw [hs]
    obtain hnone | ⟨r, hmem, hsome⟩ := hstate
    · rw [hnone, Option.getD_none]
      exact (h.mono hrequests).source
    · rw [hsome, Option.getD_some]
      exact .inr ⟨r, hmem, rfl⟩
  · rw [hr]
    intro r
    cases hnew : payload.titleRegeneration with
    | none => exact fun hold ↦ (h.mono hrequests).regeneration r hold
    | some new =>
      rw [Option.getD_some]
      rintro rfl
      exact hregeneration r hnew

end Events

/-! ## Commands of the thread -/

/-- A thread that is there and keeps its title. -/
def KeepsTitle? (title : String) (requests : List CommandId)
    (thread : Option OrchestrationThread) : Prop :=
  ∃ t, thread = some t ∧ KeepsTitle title requests t

section Commands

variable {model : OrchestrationReadModel} {clock : ℕ → IsoDateTime}
  {userInputActivity : Option OrchestrationThreadActivity} {commandId : CommandId}
  {threadId : ThreadId} {events : List PlannedOrchestrationEvent}
  {projects : List OrchestrationProject} {title : String} {requests : List CommandId}
  {thread : OrchestrationThread}

theorem KeepsTitle?.eventThread {occurredAt : IsoDateTime} {payload : ThreadEventPayload}
    {thread : Option OrchestrationThread} (h : KeepsTitle? title requests thread)
    (hpayload : payload.type ∉ ["thread.created", "thread.meta-updated"]) :
    KeepsTitle? title requests (eventThread js projects occurredAt threadId payload thread) := by
  obtain ⟨t, rfl, ht⟩ := h
  have hpatch : KeepsTitle title requests
      (threadPatch js projects occurredAt t payload t) :=
    ht.threadPatch fun hmeta ↦ hpayload (by simp [hmeta])
  cases payload
  case created => exact absurd (by simp [ThreadEventPayload.type]) hpayload
  all_goals exact ⟨_, rfl, hpatch⟩

/-- Commands that plan no metadata update and no new thread keep the title. -/
theorem KeepsTitle?.threadFold {types : List String} {thread : Option OrchestrationThread}
    (h : KeepsTitle? title requests thread)
    (htypes : "thread.created" ∉ types ∧ "thread.meta-updated" ∉ types)
    (hevents : ∀ event ∈ events, Planned commandId threadId types event) :
    KeepsTitle? title requests
      (Orchestration.threadFold js projects threadId events thread) := by
  refine threadFold_planned (fun occurredAt payload thread htype hthread ↦
    hthread.eventThread fun hmem ↦ ?_) hevents h
  rcases List.mem_pair.mp hmem with heq | heq
  · exact htypes.1 (heq ▸ htype)
  · exact htypes.2 (heq ▸ htype)

/-- A metadata update of the title's thread that the command plans alone. -/
theorem KeepsTitle.threadFold_metaUpdated {requests' : List CommandId}
    (h : KeepsTitle title requests thread) {payload : ThreadMetaUpdatedPayload}
    (hrequests : requests ⊆ requests') {occurredAt : IsoDateTime}
    {metadata : OrchestrationEventMetadata} (htitle : payload.title = none)
    (hstate : payload.titleState = none ∨
      ∃ r ∈ requests', payload.titleState = some (some ⟨.generated, r, false⟩))
    (hregeneration : ∀ r, payload.titleRegeneration = some (some r) → r.requestId ∈ requests') :
    KeepsTitle? title requests' (threadFold js projects threadId
      [threadEvent commandId threadId occurredAt (.metaUpdated payload) metadata]
      (some thread)) :=
  ⟨_, rfl, h.metaUpdated htitle hrequests hstate hregeneration⟩

private theorem keepsTitle_metaUpdate {update : ThreadMetaUpdate}
    (hdecided : decideOrchestrationCommand js model clock userInputActivity
      ⟨commandId, .thread threadId (.metaUpdate update)⟩ = .ok events)
    (hfind : findThread model.threads threadId = some thread)
    (h : KeepsTitle title requests thread)
    (hnot : ¬ ReplacesTitle threadId requests thread (.thread threadId (.metaUpdate update))) :
    KeepsTitle? title (requests ++ if update.regenerateTitle = true then [commandId] else [])
      (threadFold js projects threadId events (some thread)) := by
  have htitle : update.title = none := by
    by_contra hsome
    exact hnot (.renamed update (Option.isSome_iff_ne_none.mpr hsome))
  obtain ⟨thread', hfind', metadata, links, rfl, hlinks, hmetadata⟩ :=
    decide_metaUpdate_eq_ok hdecided
  obtain rfl := Option.some_inj.mp (hfind.symm.trans hfind')
  rw [threadFold_append]
  refine KeepsTitle?.threadFold ?_ (by simp) hlinks
  obtain ⟨hnone, rfl⟩ | ⟨linked, -, rfl⟩ := hmetadata
  · exact ⟨thread, rfl, h.mono (List.subset_append_left _ _)⟩
  · refine h.threadFold_metaUpdated (List.subset_append_left _ _) htitle ?_ ?_
    · simp only [metaUpdatedPayload, htitle, Option.map_none]
      split <;> simp
    · simp only [metaUpdatedPayload, htitle, Option.isSome_none, Bool.false_eq_true, false_and,
        if_false]
      split <;> simp

private theorem keepsTitle_titleGenerateComplete {expectedTitle newTitle : String}
    {expectedVersion : Option CommandId} {needsRefinement : Bool}
    (hdecided : decideOrchestrationCommand js model clock userInputActivity ⟨commandId,
      .thread threadId (.titleGenerateComplete expectedTitle expectedVersion newTitle
        needsRefinement)⟩ = .ok events)
    (hfind : findThread model.threads threadId = some thread)
    (h : KeepsTitle title requests thread)
    (hnot : ¬ ReplacesTitle threadId requests thread (.thread threadId
      (.titleGenerateComplete expectedTitle expectedVersion newTitle needsRefinement))) :
    KeepsTitle? title requests (threadFold js projects threadId events (some thread)) := by
  simp only [decideOrchestrationCommand, decideWith, decideThreadCommand,
    decideTitleGenerateComplete, requireThread_bind_eq_ok, hfind, Option.some.injEq] at hdecided
  obtain ⟨_, rfl, hdecided⟩ := hdecided
  obtain rfl := pure_eq_ok.mp hdecided
  have hcurrent : ¬ (thread.deletedAt = none ∧
      thread.titleState.all (·.source ≠ .manual) = true ∧ thread.title = expectedTitle ∧
      thread.titleState.map (·.version) = expectedVersion ∧ thread.titleRegeneration = none) := by
    rintro ⟨-, hsource, rfl, rfl, hpending⟩
    obtain hmanual | ⟨r, hr, hstate⟩ := h.source
    · cases hstate : thread.titleState with
      | none => simp [hstate] at hmanual
      | some state =>
        simp only [hstate, Option.any_some, Option.all_some, decide_eq_true_eq] at hmanual hsource
        exact hsource hmanual
    · rw [hstate] at hnot
      exact hnot (.generated r newTitle needsRefinement hr hstate hpending)
  refine h.threadFold_metaUpdated (fun _ ↦ id) (if_neg hcurrent) (.inl (if_neg hcurrent)) ?_
  intro r hr
  cases hr

private theorem keepsTitle_titleRefine {expectedVersion : CommandId}
    (hdecided : decideOrchestrationCommand js model clock userInputActivity
      ⟨commandId, .thread threadId (.titleRefine expectedVersion)⟩ = .ok events)
    (hfind : findThread model.threads threadId = some thread)
    (h : KeepsTitle title requests thread) :
    KeepsTitle? title requests (threadFold js projects threadId events (some thread)) := by
  simp only [decideOrchestrationCommand, decideWith, decideThreadCommand, decideTitleRefine,
    requireThread_bind_eq_ok, hfind, Option.some.injEq] at hdecided
  obtain ⟨_, rfl, hdecided⟩ := hdecided
  obtain rfl := pure_eq_ok.mp hdecided
  -- what a request leaves needs no refinement
  have hstate : thread.titleState ≠ some ⟨.generated, expectedVersion, true⟩ := by
    intro hstate
    obtain hmanual | ⟨r, -, hgenerated⟩ := h.source
    · simp [hstate] at hmanual
    · simp [hstate] at hgenerated
  refine h.threadFold_metaUpdated (fun _ ↦ id) rfl (.inl ?_) ?_
  · simp [hstate]
  · simp [hstate]

private theorem keepsTitle_titleRegenerationComplete {requestId : CommandId}
    {newTitle : Option String}
    (hdecided : decideOrchestrationCommand js model clock userInputActivity
      ⟨commandId, .thread threadId (.titleRegenerationComplete requestId newTitle)⟩ = .ok events)
    (hfind : findThread model.threads threadId = some thread)
    (h : KeepsTitle title requests thread)
    (hnot : ¬ ReplacesTitle threadId requests thread
      (.thread threadId (.titleRegenerationComplete requestId newTitle))) :
    KeepsTitle? title requests (threadFold js projects threadId events (some thread)) := by
  simp only [decideOrchestrationCommand, decideWith, decideThreadCommand,
    decideTitleRegenerationComplete, requireThread_bind_eq_ok, hfind, Option.some.injEq]
    at hdecided
  obtain ⟨_, rfl, hdecided⟩ := hdecided
  obtain rfl := pure_eq_ok.mp hdecided
  refine h.threadFold_metaUpdated (fun _ ↦ id) ?_ (.inl rfl) ?_
  · dsimp only
    split
    · rename_i hcurrent
      cases newTitle with
      | none => rfl
      | some newTitle =>
        obtain ⟨r, hr, rfl⟩ := Option.map_eq_some_iff.mp hcurrent
        exact absurd (.regenerated _ newTitle (h.regeneration r hr) hcurrent) hnot
    · rfl
  · intro r hr
    dsimp only at hr
    split at hr <;> cases hr

/-- **A command that cannot replace the title keeps it.** -/
theorem KeepsTitle?.decide {command : ThreadCommand}
    (h : KeepsTitle? title requests (findThread model.threads threadId))
    (hdecided : decideOrchestrationCommand js model clock userInputActivity
      ⟨commandId, .thread threadId command⟩ = .ok events)
    (hnot : ∀ t, findThread model.threads threadId = some t →
      ¬ ReplacesTitle threadId requests t (.thread threadId command))
    {repositoryIdentity : Option (Option RepositoryIdentity)} :
    KeepsTitle? title (requests ++ (titleRequest? threadId ⟨⟨commandId, .thread threadId command⟩,
        clock, userInputActivity, repositoryIdentity⟩).toList)
      (Orchestration.threadFold js projects threadId events
        (findThread model.threads threadId)) := by
  obtain ⟨thread, hfind, hthread⟩ := h
  have hplanned := planned_of_decide hdecided
  replace hnot := hnot thread hfind
  rw [hfind]
  cases command
  case metaUpdate update =>
    have hrequest : (titleRequest? threadId ⟨⟨commandId, .thread threadId (.metaUpdate update)⟩,
        clock, userInputActivity, repositoryIdentity⟩).toList =
        if update.regenerateTitle = true then [commandId] else [] := by
      simp only [titleRequest?, true_and]
      split <;> rfl
    rw [hrequest]
    exact keepsTitle_metaUpdate hdecided hfind hthread hnot
  all_goals rw [titleRequest?, Option.toList_none, List.append_nil]
  case create create => exact absurd (.created create) hnot
  case titleGenerateComplete => exact keepsTitle_titleGenerateComplete hdecided hfind hthread hnot
  case titleRefine => exact keepsTitle_titleRefine hdecided hfind hthread
  case titleRegenerationComplete =>
    exact keepsTitle_titleRegenerationComplete hdecided hfind hthread hnot
  case activeReorder orderKey =>
    simp only [decideOrchestrationCommand, decideWith, decideThreadCommand, decideActiveReorder,
      requireThreadNotArchived_bind_eq_ok, ensure_bind_eq_ok, pure_eq_ok] at hdecided
    obtain ⟨_, -, -, -, rfl⟩ := hdecided
    refine hthread.threadFold_metaUpdated (fun _ ↦ id) rfl (.inl rfl) fun r hr ↦ ?_
    cases hr
  case pullRequestSync =>
    simp only [decideOrchestrationCommand, decideWith, decideThreadCommand, decidePullRequestSync,
      requireThreadNotArchived_bind_eq_ok, ensure_bind_eq_ok, requireProject_bind_eq_ok,
      pure_eq_ok] at hdecided
    obtain ⟨_, -, -, -, -, _, -, -, rfl⟩ := hdecided
    refine hthread.threadFold_metaUpdated (fun _ ↦ id) rfl (.inl rfl) fun r hr ↦ ?_
    cases hr
  all_goals
    exact KeepsTitle?.threadFold ⟨thread, rfl, hthread⟩ (by simp [ThreadCommand.emits]) hplanned

end Commands

/-! ## Runs -/

end Awen.Orchestration
