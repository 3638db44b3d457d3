import Awen.Orchestration.ThreadFold

/-!
# Which events a command leads to

`ThreadCommand.emits` lists the types of event that a thread command can plan, and
`planned_of_decide` says that an accepted thread command plans events of these types only, all of
them about its own thread. `decide_project_eq_ok` does the same for the commands of a project. What
the proofs about runs need beyond that they read from the decider itself.
-/

namespace Awen.Orchestration

variable {js : JsRuntime}

/-- The types of event that a thread command can plan. -/
def ThreadCommand.emits : ThreadCommand → List String
  | .create _ => ["thread.created"]
  | .delete => ["thread.deleted"]
  | .archive => ["thread.archived"]
  | .unarchive => ["thread.unarchived"]
  | .settle | .autoSettle .. =>
    ["thread.settled", "thread.activity-appended", "thread.unpinned", "thread.unsnoozed"]
  | .unsettle => ["thread.unsettled"]
  | .snooze _ => ["thread.snoozed"]
  | .unsnooze => ["thread.unsnoozed"]
  | .pin _ => ["thread.pinned", "thread.unsettled", "thread.unsnoozed"]
  | .unpin => ["thread.unpinned"]
  | .pinReorder _ => ["thread.pin-reordered"]
  | .activeReorder _ => ["thread.meta-updated"]
  | .metaUpdate _ =>
    ["thread.meta-updated", "thread.pull-request-linked", "thread.pull-request-unlinked"]
  | .pullRequestLink .. => ["thread.pull-request-linked"]
  | .pullRequestUnlink _ => ["thread.pull-request-linked", "thread.pull-request-unlinked"]
  | .pullRequestLinkSync .. => ["thread.pull-request-synced"]
  | .pullRequestSync _ | .titleGenerateComplete .. | .titleRefine _
  | .titleRegenerationComplete .. => ["thread.meta-updated"]
  | .runtimeModeSet _ => ["thread.runtime-mode-set"]
  | .interactionModeSet _ => ["thread.interaction-mode-set"]
  | .turnStart _ =>
    ["thread.unsettled", "thread.unsnoozed", "thread.message-sent", "thread.turn-start-requested"]
  | .messageUserAppend .. | .messageAssistantDelta .. | .messageAssistantComplete .. =>
    ["thread.message-sent"]
  | .turnInterrupt .. => ["thread.turn-interrupt-requested"]
  | .approvalRespond .. => ["thread.approval-response-requested"]
  | .userInputRespond _ =>
    ["thread.unsettled", "thread.unsnoozed", "thread.message-sent", "thread.turn-start-requested",
      "thread.activity-appended", "thread.user-input-response-requested"]
  | .userInputDismiss .. => ["thread.activity-appended"]
  | .checkpointRevert .. | .conversationRevert .. => ["thread.checkpoint-revert-requested"]
  | .sessionStop .. => ["thread.session-stop-requested"]
  | .sessionSet .. => ["thread.unsettled", "thread.session-set"]
  | .historyImport _ => ["thread.message-sent", "thread.settled"]
  | .proposedPlanUpsert .. => ["thread.proposed-plan-upserted"]
  | .turnDiffComplete .. => ["thread.turn-diff-completed"]
  | .revertComplete .. => ["thread.reverted"]
  | .activityAppend .. => ["thread.unsettled", "thread.activity-appended"]

/-- An event that a command plans about its thread, of one of the given types. -/
structure Planned (commandId : CommandId) (threadId : ThreadId) (types : List String)
    (event : PlannedOrchestrationEvent) : Prop where
  aggregateKind : event.aggregateKind = .thread
  aggregateId : event.aggregateId = threadId
  commandId : event.commandId = commandId
  payload : ∃ payload, event.payload = .thread threadId payload ∧ payload.type ∈ types

theorem planned_threadEvent {commandId : CommandId} {threadId : ThreadId}
    {occurredAt : IsoDateTime} {payload : ThreadEventPayload}
    {metadata : OrchestrationEventMetadata} {types : List String} (h : payload.type ∈ types) :
    Planned commandId threadId types
      (threadEvent commandId threadId occurredAt payload metadata) :=
  ⟨rfl, rfl, rfl, payload, rfl, h⟩

/-- A decision that, if it is made, plans events of the given types about one thread. -/
def Plans (commandId : CommandId) (threadId : ThreadId) (types : List String)
    (decision : Decision (List PlannedOrchestrationEvent)) : Prop :=
  ∀ events, decision = .ok events → ∀ event ∈ events, Planned commandId threadId types event

section Rules

variable {commandId : CommandId} {threadId : ThreadId} {types : List String}

/-- What is planned does not depend on the preconditions. -/
theorem Plans.bind {α : Type} {x : Decision α} {f : α → Decision (List PlannedOrchestrationEvent)}
    (h : ∀ a, Plans commandId threadId types (f a)) : Plans commandId threadId types (x >>= f) := by
  intro events hevents
  obtain ⟨a, -, ha⟩ := bind_eq_ok.mp hevents
  exact h a events ha

/-- What is planned may use what the first part has planned. -/
theorem Plans.bind_of {x : Decision (List PlannedOrchestrationEvent)}
    {f : List PlannedOrchestrationEvent → Decision (List PlannedOrchestrationEvent)}
    (hx : Plans commandId threadId types x)
    (h : ∀ events, (∀ event ∈ events, Planned commandId threadId types event) →
      Plans commandId threadId types (f events)) : Plans commandId threadId types (x >>= f) := by
  intro events hevents
  obtain ⟨a, ha, hf⟩ := bind_eq_ok.mp hevents
  exact h a (hx a ha) events hf

theorem Plans.pure {events : List PlannedOrchestrationEvent}
    (h : ∀ event ∈ events, Planned commandId threadId types event) :
    Plans commandId threadId types (Pure.pure events) := by
  intro events' hevents
  obtain rfl := pure_eq_ok.mp hevents
  exact h

theorem Plans.single {occurredAt : IsoDateTime} {payload : ThreadEventPayload}
    {metadata : OrchestrationEventMetadata} (h : payload.type ∈ types) :
    Plans commandId threadId types
      (Pure.pure [threadEvent commandId threadId occurredAt payload metadata]) :=
  .pure (by simpa using planned_threadEvent h)

theorem Plans.error {rejection : OrchestrationCommandRejection} :
    Plans commandId threadId types (.error rejection) := by
  intro events hevents
  cases hevents

theorem Planned.mono {types' : List String} {event : PlannedOrchestrationEvent}
    (h : Planned commandId threadId types event) (htypes : types ⊆ types') :
    Planned commandId threadId types' event :=
  { h with payload := h.payload.imp fun _ hp ↦ ⟨hp.1, htypes hp.2⟩ }

theorem Plans.mono {types' : List String} {decision : Decision (List PlannedOrchestrationEvent)}
    (h : Plans commandId threadId types decision) (htypes : types ⊆ types') :
    Plans commandId threadId types' decision :=
  fun events hevents event he ↦ (h events hevents event he).mono htypes

end Rules

/-- The commands of a sequence are about one thread and can plan events of these types only. -/
def SequenceOf (threadId : ThreadId) (types : List String)
    (commands : List OrchestrationCommandBody) : Prop :=
  ∀ body ∈ commands, ∃ command : ThreadCommand, body = .thread threadId command ∧
    command.emits ⊆ types

/-- The runner of sequences plans what the commands of the sequence can plan. -/
def RunnerPlans (sequence : SequenceRunner) (commandId : CommandId) : Prop :=
  ∀ (threadId : ThreadId) (types : List String) (commands : List OrchestrationCommandBody),
    SequenceOf threadId types commands → Plans commandId threadId types (sequence commands)

section Commands

-- makes the equations once for all proofs
attribute [local simp] ThreadEventPayload.type ThreadCommand.emits

variable {readModel : OrchestrationReadModel} {context : DecisionContext} {commandId : CommandId}
  {threadId : ThreadId}

theorem plans_settle {type : String} {auto : Option IsoDateTime} :
    Plans commandId threadId ThreadCommand.settle.emits
      (decideSettle js readModel context commandId threadId type auto) := by
  refine .bind fun thread ↦ .bind fun _ ↦ .bind fun _ ↦ .bind fun _ ↦ .bind fun _ ↦ .pure ?_
  intro event he
  simp only [List.mem_append, List.mem_cons, List.mem_map, List.mem_ite_nil_right,
    List.not_mem_nil, or_false] at he
  rcases he with ((rfl | ⟨request, -, rfl⟩) | ⟨-, rfl⟩) | ⟨-, rfl⟩ <;>
    exact planned_threadEvent (by simp)

private theorem plans_pin {orderKey : Option String} :
    Plans commandId threadId (ThreadCommand.pin orderKey).emits
      (decidePin readModel context commandId threadId orderKey) := by
  refine .bind fun thread ↦ .pure ?_
  intro event he
  simp only [List.mem_append, List.mem_cons, List.mem_ite_nil_right, List.not_mem_nil,
    or_false] at he
  rcases he with (rfl | ⟨-, rfl⟩) | ⟨-, rfl⟩ <;>
    exact planned_threadEvent (by simp)

theorem plans_turnStart {start : TurnStart} :
    Plans commandId threadId (ThreadCommand.turnStart start).emits
      (decideTurnStart readModel commandId threadId start) := by
  refine .bind fun _ ↦ .bind fun thread ↦ .bind fun _ ↦ .pure ?_
  intro event he
  simp only [lifecycleResetEvents, List.mem_append, List.mem_cons, List.mem_ite_nil_right,
    List.mem_ite_nil_left, List.not_mem_nil, or_false] at he
  rcases he with ((⟨-, rfl⟩ | ⟨-, rfl⟩) | ⟨-, rfl⟩) | rfl <;>
    exact planned_threadEvent (by simp)

private theorem plans_sessionSet {session : OrchestrationSession} {createdAt : IsoDateTime} :
    Plans commandId threadId (ThreadCommand.sessionSet session createdAt).emits
      (decideSessionSet readModel commandId threadId session createdAt) := by
  refine .bind fun thread ↦ .pure ?_
  intro event he
  simp only [List.mem_append, List.mem_cons, List.mem_ite_nil_right, List.not_mem_nil,
    or_false] at he
  rcases he with ⟨-, rfl⟩ | rfl <;>
    exact planned_threadEvent (by simp)

theorem plans_historyImport {messages : List ImportedMessage} :
    Plans commandId threadId (ThreadCommand.historyImport messages).emits
      (decideHistoryImport js readModel commandId threadId messages) := by
  refine .bind fun thread ↦ .bind fun _ ↦ ?_
  cases messages with
  | nil => exact .error
  | cons first messages =>
    refine .pure ?_
    intro event he
    simp only [List.mem_append, List.mem_map, List.mem_singleton] at he
    rcases he with ⟨message, -, rfl⟩ | rfl <;>
      exact planned_threadEvent (by simp)

theorem plans_activityAppend {activity : OrchestrationThreadActivity}
    {createdAt : IsoDateTime} :
    Plans commandId threadId (ThreadCommand.activityAppend activity createdAt).emits
      (decideActivityAppend readModel commandId threadId activity createdAt) := by
  refine .bind fun thread ↦ .pure ?_
  intro event he
  simp only [List.mem_append, List.mem_cons, List.mem_ite_nil_right, List.not_mem_nil,
    or_false] at he
  rcases he with ⟨-, rfl⟩ | rfl <;>
    exact planned_threadEvent (by simp)

private theorem plans_pullRequestUnlink {key : ThreadPullRequestKey} :
    Plans commandId threadId (ThreadCommand.pullRequestUnlink key).emits
      (decidePullRequestUnlink js readModel context commandId threadId key) := by
  refine .bind fun thread ↦ .bind fun existing ↦ .single ?_
  split <;> simp

/-- The commands of a metadata update that edits the linked pull request. -/
private theorem sequenceOf_metaUpdate {update : ThreadMetaUpdate}
    {commands : List OrchestrationCommandBody}
    (h : SequenceOf threadId (ThreadCommand.metaUpdate update).emits commands) :
    SequenceOf threadId (ThreadCommand.metaUpdate update).emits
      ((if update.hasMetadata then [.thread threadId
        (.metaUpdate { update with linkedPullRequest := none })] else []) ++ commands) := by
  intro body hbody
  rcases List.mem_append.mp hbody with hbody | hbody
  · simp only [List.mem_ite_nil_right, List.mem_singleton] at hbody
    exact ⟨_, hbody.2, fun _ ↦ id⟩
  · exact h body hbody

private theorem plans_metaUpdate {sequence : SequenceRunner}
    (hsequence : RunnerPlans sequence commandId) {update : ThreadMetaUpdate} :
    Plans commandId threadId (ThreadCommand.metaUpdate update).emits
      (decideMetaUpdate js sequence readModel context commandId threadId update) := by
  refine .bind fun thread ↦ ?_
  dsimp only
  split
  · refine hsequence threadId _ _ ?_
    rw [List.append_assoc]
    refine sequenceOf_metaUpdate fun body hbody ↦ ?_
    simp only [List.mem_append, List.mem_map, List.mem_singleton] at hbody
    rcases hbody with ⟨link, -, rfl⟩ | rfl <;> exact ⟨_, rfl, by simp [ThreadCommand.emits]⟩
  · refine hsequence threadId _ _ (sequenceOf_metaUpdate fun body hbody ↦ ?_)
    obtain rfl := List.mem_singleton.mp hbody
    exact ⟨_, rfl, by simp [ThreadCommand.emits]⟩
  · exact .single (by simp)

private theorem plans_userInputRespond {sequence : SequenceRunner}
    (hsequence : RunnerPlans sequence commandId) {respond : UserInputRespond} :
    Plans commandId threadId (ThreadCommand.userInputRespond respond).emits
      (decideUserInputRespond sequence readModel context commandId threadId respond) := by
  refine .bind fun thread ↦ .bind fun questions ↦ ?_
  split
  · rename_i request _
    refine .bind fun asked ↦ .bind fun replies ↦ hsequence threadId _ _ fun body hbody ↦ ?_
    simp only [asyncAnswer, List.mem_cons, List.not_mem_nil, or_false] at hbody
    rcases hbody with rfl | rfl <;> exact ⟨_, rfl, by simp [ThreadCommand.emits]⟩
  · dsimp only
    split
    · exact .single (by simp)
    · refine .bind_of (plans_activityAppend.mono (by simp [ThreadCommand.emits]))
        fun history hhistory ↦ .pure fun event he ↦ ?_
      rcases List.mem_append.mp he with he | he
      · exact hhistory event he
      · rw [List.mem_singleton.mp he]
        exact planned_threadEvent (by simp)

/-- **An accepted thread command plans events of its thread**, of the types in `emits`. -/
theorem plans_decideThreadCommand {sequence : SequenceRunner}
    (hsequence : RunnerPlans sequence commandId) (command : ThreadCommand) :
    Plans commandId threadId command.emits
      (decideThreadCommand js sequence readModel context commandId threadId command) := by
  cases command
  case settle => exact plans_settle
  case autoSettle => exact plans_settle
  case pin => exact plans_pin
  case turnStart => exact plans_turnStart
  case sessionSet => exact plans_sessionSet
  case historyImport => exact plans_historyImport
  case activityAppend => exact plans_activityAppend
  case pullRequestUnlink => exact plans_pullRequestUnlink
  case metaUpdate => exact plans_metaUpdate hsequence
  case userInputRespond => exact plans_userInputRespond hsequence
  all_goals
    -- one event, behind preconditions that play no part here
    simp only [decideThreadCommand, decidePlain, decideThreadCreate, decideUnsettle, decideSnooze,
      decideUnsnooze, decideUnpin, decidePinReorder, decideActiveReorder, decidePullRequestLink,
      decidePullRequestLinkSync, decidePullRequestSync, decideTitleGenerateComplete,
      decideTitleRefine, decideTitleRegenerationComplete, decideMessageUserAppend,
      decideMessageAssistant, decideUserInputDismiss, decideSessionStop]
    repeat refine .bind fun _ ↦ ?_
    exact .single (by simp)

end Commands

/-! ## Sequences and whole commands -/

/-- In a sequence no command is itself run as one, so nothing is planned there. -/
theorem runnerPlans_nothing {commandId : CommandId} : RunnerPlans (fun _ ↦ .ok []) commandId := by
  intro threadId types commands _ events hevents
  cases hevents
  exact List.forall_mem_nil _

theorem runnerPlans_decideCommandSequence {commandId : CommandId} (clock : ℕ → IsoDateTime)
    (readModel : OrchestrationReadModel) :
    RunnerPlans (decideCommandSequence js commandId clock readModel) commandId := by
  intro threadId types commands hcommands
  induction commands generalizing clock readModel with
  | nil => exact .pure (List.forall_mem_nil _)
  | cons body commands ih =>
    obtain ⟨command, rfl, hemits⟩ := hcommands body List.mem_cons_self
    refine .bind_of ((plans_decideThreadCommand runnerPlans_nothing command).mono hemits)
      fun events hevents ↦ .bind_of (ih (fun i ↦ clock (i + 1)) _ fun b hb ↦
        hcommands b (List.mem_cons_of_mem _ hb)) fun rest hrest ↦ .pure fun event he ↦ ?_
    exact (List.mem_append.mp he).elim (hevents event) (hrest event)

section Decide

variable {readModel : OrchestrationReadModel} {clock : ℕ → IsoDateTime}
  {userInputActivity : Option OrchestrationThreadActivity} {commandId : CommandId}
  {events : List PlannedOrchestrationEvent}

/-- What a thread command plans, by itself or as a sequence. -/
theorem planned_of_decide {threadId : ThreadId} {command : ThreadCommand}
    (h : decideOrchestrationCommand js readModel clock userInputActivity
      ⟨commandId, .thread threadId command⟩ = .ok events) :
    ∀ event ∈ events, Planned commandId threadId command.emits event :=
  plans_decideThreadCommand (runnerPlans_decideCommandSequence clock readModel) command events h

theorem eventsOf_of_decide {threadId : ThreadId} {command : ThreadCommand}
    (h : decideOrchestrationCommand js readModel clock userInputActivity
      ⟨commandId, .thread threadId command⟩ = .ok events) : EventsOf threadId events :=
  fun event he ↦ (planned_of_decide h event he).payload.imp fun _ hp ↦ hp.1

/-- A metadata update without a linked pull request is one event. -/
private theorem decideMetaUpdate_eq_ok_of_none {sequence : SequenceRunner}
    {context : DecisionContext} {threadId : ThreadId} {update : ThreadMetaUpdate}
    (hlinked : update.linkedPullRequest = none)
    (h : decideMetaUpdate js sequence readModel context commandId threadId update = .ok events) :
    ∃ thread, findThread readModel.threads threadId = some thread ∧
      events = [threadEvent commandId threadId context.now
        (.metaUpdated (metaUpdatedPayload context commandId thread update))] := by
  simp only [decideMetaUpdate, requireThread_bind_eq_ok, hlinked] at h
  obtain ⟨thread, hthread, h⟩ := h
  exact ⟨thread, hthread, (pure_eq_ok.mp h).symm⟩

/-- The events of a metadata update: one event of the metadata, unless there is none, and then
events of links. -/
structure MetaUpdatePlan (js : JsRuntime) (readModel : OrchestrationReadModel) (now : IsoDateTime)
    (commandId : CommandId) (threadId : ThreadId) (update : ThreadMetaUpdate)
    (thread : OrchestrationThread) (events : List PlannedOrchestrationEvent) : Prop where
  plan : ∃ metadata links, events = metadata ++ links ∧
    (∀ event ∈ links, Planned commandId threadId
      ["thread.pull-request-linked", "thread.pull-request-unlinked"] event) ∧
    ((update.hasMetadata = false ∧ metadata = []) ∨
      ∃ linked,
        (linked = none ∨ linked = some none ∧ currentPullRequest js readModel thread = none) ∧
        metadata = [threadEvent commandId threadId now (.metaUpdated (metaUpdatedPayload { now }
          commandId thread { update with linkedPullRequest := linked }))])

private theorem metaUpdatePlan_sequence {threadId : ThreadId} {update : ThreadMetaUpdate}
    {thread : OrchestrationThread} {links : List OrchestrationCommandBody}
    (hfind : findThread readModel.threads threadId = some thread)
    (hlinks : SequenceOf threadId ["thread.pull-request-linked", "thread.pull-request-unlinked"]
      links)
    (h : decideCommandSequence js commandId clock readModel
      ((if update.hasMetadata then [.thread threadId
        (.metaUpdate { update with linkedPullRequest := none })] else []) ++ links) =
      .ok events) :
    MetaUpdatePlan js readModel (clock 0) commandId threadId update thread events := by
  cases hmetadata : update.hasMetadata with
  | false =>
    simp only [hmetadata, Bool.false_eq_true, if_false, List.nil_append] at h
    exact ⟨[], events, rfl, runnerPlans_decideCommandSequence _ _ _ _ _ hlinks events h,
      .inl ⟨hmetadata, rfl⟩⟩
  | true =>
    simp only [hmetadata, if_true, List.singleton_append, decideCommandSequence, bind_eq_ok,
      pure_eq_ok] at h
    obtain ⟨metadata, hmeta, rest, hrest, rfl⟩ := h
    simp only [decideSimpleCommand, decideWith, decideThreadCommand] at hmeta
    obtain ⟨thread', hthread', rfl⟩ := decideMetaUpdate_eq_ok_of_none (by rfl) hmeta
    obtain rfl := Option.some_inj.mp (hfind.symm.trans hthread')
    exact ⟨_, rest, rfl, runnerPlans_decideCommandSequence _ _ _ _ _ hlinks rest hrest,
      .inr ⟨none, .inl rfl, rfl⟩⟩

/-- **What a metadata update plans.** -/
theorem decide_metaUpdate_eq_ok {threadId : ThreadId} {update : ThreadMetaUpdate}
    (h : decideOrchestrationCommand js readModel clock userInputActivity
      ⟨commandId, .thread threadId (.metaUpdate update)⟩ = .ok events) :
    ∃ thread, findThread readModel.threads threadId = some thread ∧
      MetaUpdatePlan js readModel (clock 0) commandId threadId update thread events := by
  simp only [decideOrchestrationCommand, decideWith, decideThreadCommand, decideMetaUpdate,
    requireThread_bind_eq_ok] at h
  obtain ⟨thread, hfind, h⟩ := h
  refine ⟨thread, hfind, ?_⟩
  split at h
  · rw [List.append_assoc] at h
    refine metaUpdatePlan_sequence hfind (fun body hbody ↦ ?_) h
    simp only [List.mem_append, List.mem_map, List.mem_singleton] at hbody
    rcases hbody with ⟨link, -, rfl⟩ | rfl <;> exact ⟨_, rfl, by simp [ThreadCommand.emits]⟩
  · refine metaUpdatePlan_sequence hfind (fun body hbody ↦ ?_) h
    obtain rfl := List.mem_singleton.mp hbody
    exact ⟨_, rfl, by simp [ThreadCommand.emits]⟩
  · rename_i hsome hnone
    refine ⟨_, [], (List.append_nil _).symm, List.forall_mem_nil _,
      .inr ⟨update.linkedPullRequest, ?_, (pure_eq_ok.mp h).symm⟩⟩
    cases hlinked : update.linkedPullRequest with
    | none => exact .inl rfl
    | some linked =>
      cases linked with
      | some linked => exact absurd hlinked (hsome linked)
      | none =>
        refine .inr ⟨rfl, ?_⟩
        cases hcurrent : currentPullRequest js readModel thread with
        | none => rfl
        | some current => exact absurd hcurrent (hnone current hlinked)

/-- An event that deletes a thread on the way to the deletion of its project. -/
def IsThreadDeletion (commandId : CommandId) (event : PlannedOrchestrationEvent) : Prop :=
  ∃ threadId at', event = threadEvent commandId threadId at' (.deleted at')

/-- The sequence of a forced deletion: threads first, and the project once none of its threads is
left. -/
private theorem deletionSequence_eq_ok {projectId : ProjectId} {threads : List OrchestrationThread}
    (h : decideCommandSequence js commandId clock readModel
      (threads.map (fun thread ↦ .thread thread.id .delete) ++
        [.project projectId (.delete false)]) = .ok events) :
    ∃ deletions now, events = deletions ++
        [projectPlannedEvent commandId projectId now (.deleted now)] ∧
      (∀ event ∈ deletions, IsThreadDeletion commandId event) ∧
      activeThreads ((commandModel js).fold readModel deletions) projectId = [] := by
  induction threads generalizing clock readModel events with
  | nil =>
    simp only [List.map_nil, List.nil_append, decideCommandSequence, decideSimpleCommand,
      decideWith, decideProjectCommand, decideProjectDelete, bind_assoc,
      requireProject_bind_eq_ok, ensure_bind_eq_ok] at h
    obtain ⟨project, -, hempty, h⟩ := h
    obtain hempty | hforce := hempty
    · rw [if_neg (not_not_intro hempty)] at h
      cases h
      exact ⟨[], clock 0, rfl, List.forall_mem_nil _, hempty⟩
    · cases hforce
  | cons thread threads ih =>
    simp only [List.map_cons, List.cons_append, decideCommandSequence, bind_eq_ok, pure_eq_ok] at h
    obtain ⟨first, hfirst, rest, hrest, rfl⟩ := h
    simp only [decideSimpleCommand, decideWith, decideThreadCommand, decidePlain,
      requireThread_bind_eq_ok, pure_eq_ok] at hfirst
    obtain ⟨_, -, rfl⟩ := hfirst
    obtain ⟨deletions, now, rfl, hdeletions, hempty⟩ := ih hrest
    refine ⟨_ :: deletions, now, rfl, ?_, hempty⟩
    exact List.forall_mem_cons.mpr ⟨⟨thread.id, _, rfl⟩, hdeletions⟩

/-- **What the deletion of a project plans**, forced or not: it ends with the event of the project,
when no live thread of it is left; before it stand the deletions of threads. -/
theorem decide_projectDelete_eq_ok {projectId : ProjectId} {force : Bool}
    (h : decideOrchestrationCommand js readModel clock userInputActivity
      ⟨commandId, .project projectId (.delete force)⟩ = .ok events) :
    ∃ deletions now, events = deletions ++
        [projectPlannedEvent commandId projectId now (.deleted now)] ∧
      (∀ event ∈ deletions, IsThreadDeletion commandId event) ∧
      activeThreads ((commandModel js).fold readModel deletions) projectId = [] := by
  simp only [decideOrchestrationCommand, decideWith, decideProjectCommand, decideProjectDelete,
    requireProject_bind_eq_ok, ensure_bind_eq_ok] at h
  obtain ⟨project, -, -, h⟩ := h
  split at h
  · exact deletionSequence_eq_ok h
  · rename_i hempty
    obtain rfl := pure_eq_ok.mp h
    exact ⟨[], _, rfl, List.forall_mem_nil _, not_not.mp hempty⟩

/-- **What a project command plans**: one event that is no deletion, or a deletion. -/
theorem decide_project_eq_ok {projectId : ProjectId} {command : ProjectCommand}
    (h : decideOrchestrationCommand js readModel clock userInputActivity
      ⟨commandId, .project projectId command⟩ = .ok events) :
    (∃ occurredAt payload, (∀ at', payload ≠ .deleted at') ∧
      events = [projectPlannedEvent commandId projectId occurredAt payload]) ∨
    ∃ deletions now, events = deletions ++
        [projectPlannedEvent commandId projectId now (.deleted now)] ∧
      (∀ event ∈ deletions, IsThreadDeletion commandId event) ∧
      activeThreads ((commandModel js).fold readModel deletions) projectId = [] := by
  cases command with
  | create title workspaceRoot createdAt =>
    simp only [decideOrchestrationCommand, decideWith, decideProjectCommand,
      requireProjectAbsent_bind_eq_ok] at h
    obtain ⟨-, h⟩ := h
    obtain ⟨_, -, h⟩ := bind_eq_ok.mp h
    exact .inl ⟨_, _, fun _ ↦ by simp, (pure_eq_ok.mp h).symm⟩
  | metaUpdate update =>
    simp only [decideOrchestrationCommand, decideWith, decideProjectCommand,
      decideProjectMetaUpdate, requireProject_bind_eq_ok, ensure_bind_eq_ok] at h
    obtain ⟨project, -, -, h⟩ := h
    split at h
    · cases h
    · obtain ⟨_, -, h⟩ := bind_eq_ok.mp h
      exact .inl ⟨_, _, fun _ ↦ by simp, (pure_eq_ok.mp h).symm⟩
  | delete force => exact .inr (decide_projectDelete_eq_ok h)

end Decide

end Awen.Orchestration
