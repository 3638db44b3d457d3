import Awen.Orchestration.OpenRequests
import Awen.Orchestration.ProjectRuns

/-!
# Settled threads have no live work

A thread is settled only when nothing is open on it, and work that comes in ends the settlement.
The session of a settled thread is never alive. Its requests stay closed as long as no command
drops what closed one: `keepsClosed` says which commands do, by the place that an appended activity
takes, by the cap on activities, or by a revert. `settled_of_reaches` is the invariant of the runs
without such a command.
-/

namespace Awen.Orchestration

variable (js : JsRuntime)

/-! ## The condition -/

/-- The dismissals that settling a thread appends. -/
def settleDismissals (commandId : CommandId) (thread : OrchestrationThread) (now : IsoDateTime) :
    List OrchestrationThreadActivity :=
  (openRequests js thread).entries.map fun request ↦
    settleDismissal commandId request.1 request.2 now

/-- The activities that a command appends to a settled thread, which asks for nothing with them. -/
def appendedToSettled (dispatch : Dispatch) : ThreadCommand → List OrchestrationThreadActivity
  | .activityAppend activity _ => if activity.isRequest then [] else [activity]
  | .userInputDismiss requestId createdAt =>
    dispatch.userInputActivity.toList.map fun request ↦
      userInputDismissal requestId request createdAt
  | .userInputRespond respond =>
    -- an async question is answered by a turn, which ends the settlement
    if (dispatch.userInputActivity.any (·.byMessage)) ||
        (respond.attachmentsByQuestionId.getD []).all (·.2.isEmpty) then []
    else [answerSubmitted dispatch.command.commandId dispatch.userInputActivity respond []]
  | _ => []

/-- Whether a revert to a turn keeps an activity. -/
def keptByRevert (thread : OrchestrationThread) (turnCount : ℕ)
    (activity : OrchestrationThreadActivity) : Bool :=
  activity.turnId.all (· ∈ retainedTurnIds thread.checkpoints turnCount)

/-- A command on a thread leaves closed requests closed, and a settling one comes with dismissals
that stand after the questions they dismiss. -/
def ThreadKeepsClosed (dispatch : Dispatch) (thread : OrchestrationThread)
    (command : ThreadCommand) : Prop :=
  match command with
  | .settle =>
    (∀ request ∈ (openRequests js thread).entries, activityLe js request.2
      (settleDismissal dispatch.command.commandId request.1 request.2 (dispatch.clock 0)) = true) ∧
    AppendsKeepClosed js thread.activities
      (settleDismissals js dispatch.command.commandId thread (dispatch.clock 0))
  | .revertComplete turnCount _ => thread.settledOverride = some .settled →
    DropKeepsClosed js (keptByRevert thread turnCount) thread.activities
  | command => thread.settledOverride = some .settled →
    appendedToSettled dispatch command ≠ [] →
    AppendsKeepClosed js thread.activities (appendedToSettled dispatch command)

/-- **No command drops what closed a request of a thread that is settled.** -/
def keepsClosed : CommandCondition := fun model dispatch ↦
  match dispatch.command.body with
  | .thread threadId command =>
    ∀ thread ∈ findThread model.threads threadId, ThreadKeepsClosed js dispatch thread command
  | .project .. => True

instance (capped : Prop) [Decidable capped] (c q : OrchestrationThreadActivity) :
    Decidable (Answers js capped c q) :=
  inferInstanceAs (Decidable (_ ∧ (_ → _ → _)))

instance (activities added : List OrchestrationThreadActivity) :
    Decidable (AppendsKeepClosed js activities added) :=
  inferInstanceAs (Decidable (EveryRest _ _))

instance (keep : OrchestrationThreadActivity → Bool)
    (activities : List OrchestrationThreadActivity) :
    Decidable (DropKeepsClosed js keep activities) :=
  inferInstanceAs (Decidable (EveryRest _ _))

instance (dispatch : Dispatch) (thread : OrchestrationThread) (command : ThreadCommand) :
    Decidable (ThreadKeepsClosed js dispatch thread command) := by
  unfold ThreadKeepsClosed
  split <;> infer_instance

instance (model : OrchestrationReadModel) (dispatch : Dispatch) :
    Decidable (keepsClosed js model dispatch) :=
  decidable_of_iff
    ((match dispatch.command.body with
      | .thread threadId command => decide (∀ thread ∈ findThread model.threads threadId,
          ThreadKeepsClosed js dispatch thread command)
      | .project .. => true) = true)
    (by unfold keepsClosed; split <;> simp)

/-! ## Single events -/

section Events

variable {js} {projects : List OrchestrationProject} {occurredAt : IsoDateTime}
  {thread entry : OrchestrationThread} {payload : ThreadEventPayload} {threadId : ThreadId}
  {commandId : CommandId} {types : List String} {events : List PlannedOrchestrationEvent}

theorem activities_threadPatch
    (h : payload.type ∉ ["thread.activity-appended", "thread.reverted"]) :
    (threadPatch js projects occurredAt thread payload entry).activities = entry.activities := by
  cases payload <;> simp only [ThreadEventPayload.type, threadPatch, pullRequestsPatch] at h ⊢
  case metaUpdated => split <;> rfl
  case pullRequestSynced => split <;> rfl
  case turnDiffCompleted => split <;> rfl
  case activityAppended => simp at h
  case reverted => simp at h

theorem session_threadPatch (h : payload.type ≠ "thread.session-set") :
    (threadPatch js projects occurredAt thread payload entry).session = entry.session := by
  cases payload <;> simp only [ThreadEventPayload.type, threadPatch, pullRequestsPatch] at h ⊢
  case metaUpdated => split <;> rfl
  case pullRequestSynced => split <;> rfl
  case turnDiffCompleted => split <;> rfl
  case sessionSet => simp at h

/-- The activities of a thread are in order after every event. -/
theorem inOrder_threadPatch (h : InOrder js thread.activities) :
    InOrder js (threadPatch js projects occurredAt thread payload thread).activities := by
  by_cases hpayload : payload.type ∈ ["thread.activity-appended", "thread.reverted"]
  · cases payload <;> simp only [ThreadEventPayload.type, List.mem_cons, String.reduceEq,
      List.not_mem_nil, or_self] at hpayload
    · exact h.sublist List.filter_sublist
    · exact inOrder_appendActivity _ _
  · rwa [activities_threadPatch hpayload]

theorem inOrder_threadFold {thread : Option OrchestrationThread}
    (hevents : ∀ event ∈ events, Planned commandId threadId types event)
    (h : ∀ t, thread = some t → InOrder js t.activities) :
    ∀ t, threadFold js projects threadId events thread = some t → InOrder js t.activities :=
  threadFold_planned (Q := fun thread ↦ ∀ t, thread = some t →
      InOrder js (OrchestrationThread.activities t))
    (fun _ _ _ _ hthread ↦ eventThread_of_patch (fun _ ↦ List.Pairwise.nil)
      (fun _ ht ↦ inOrder_threadPatch ht) hthread) hevents h

/-- Nothing is open on the thread, and its session is not alive. -/
structure AtRest (js : JsRuntime) (thread : OrchestrationThread) : Prop where
  closed : AllClosed js thread.activities
  session : thread.session.all (!·.status.alive) = true

theorem AtRest.threadPatch (h : AtRest js thread) (hpayload : payload.type ∉
      ["thread.activity-appended", "thread.reverted", "thread.session-set"]) :
    AtRest js (threadPatch js projects occurredAt thread payload thread) := by
  simp only [List.mem_cons, List.not_mem_nil, or_false, not_or] at hpayload
  refine ⟨?_, ?_⟩
  · rw [activities_threadPatch (by simp [hpayload])]
    exact h.closed
  · rw [session_threadPatch hpayload.2.2]
    exact h.session

/-- Events that append nothing, drop nothing and set no session keep a thread at rest. -/
theorem atRest_threadFold {thread : Option OrchestrationThread}
    (htypes : ∀ type ∈ types, type ∉
      ["thread.activity-appended", "thread.reverted", "thread.session-set"])
    (hevents : ∀ event ∈ events, Planned commandId threadId types event)
    (h : ∀ t, thread = some t → AtRest js t) :
    ∀ t, threadFold js projects threadId events thread = some t → AtRest js t := by
  refine threadFold_planned (Q := fun thread ↦ ∀ t, thread = some t → AtRest js t)
    (fun occurredAt payload thread htype hthread ↦ eventThread_of_patch (fun _ ↦ ?_)
      (fun t ht ↦ ht.threadPatch (htypes _ htype)) hthread) hevents h
  exact ⟨everyRest_nil, rfl⟩

end Events

/-! ## Settling -/

section Settle

variable {js} {thread : OrchestrationThread} {commandId : CommandId} {now : IsoDateTime}

theorem requestId?_settleDismissal (requestId : String) (request : OrchestrationThreadActivity) :
    (settleDismissal commandId requestId request now).requestId? = some requestId := rfl

theorem isClosing_settleDismissal (requestId : String) (request : OrchestrationThreadActivity) :
    (settleDismissal commandId requestId request now).isClosing js = true := rfl

/-- Dismissals of different requests have different ids. -/
theorem nodup_ids_settleDismissals :
    ((settleDismissals js commandId thread now).map (·.id)).Nodup := by
  have hids : (settleDismissals js commandId thread now).map (·.id) =
      ((openRequests js thread).entries.map Prod.fst).map
        fun requestId ↦ s!"settle:{commandId}:{requestId}" := by
    rw [settleDismissals, List.map_map, List.map_map]
    rfl
  rw [hids]
  refine (openRequests js thread).nodup_keys.map fun r r' h ↦ ?_
  simp only [String.append_right_inj] at h
  exact h

/-- **Once every open request is dismissed, every request is closed.** -/
theorem closedAfter_settleDismissals (hsorted : InOrder js thread.activities)
    (hdismiss : ∀ request ∈ (openRequests js thread).entries,
      activityLe js request.2 (settleDismissal commandId request.1 request.2 now) = true)
    (hkeep : AppendsKeepClosed js thread.activities (settleDismissals js commandId thread now)) :
    ClosedAfter js (maxThreadActivities <
      thread.activities.length + (settleDismissals js commandId thread now).length)
      thread.activities (settleDismissals js commandId thread now) := by
  intro before q after hsplit hq hid
  by_cases hclosed : ∃ c ∈ after, c.closes js q = true
  · exact hkeep before q after hsplit hq hid hclosed
  push Not at hclosed
  rw [OrchestrationThreadActivity.asks, Bool.and_eq_true, Option.isSome_iff_exists] at hq
  obtain ⟨hrequest, requestId, hrequestId⟩ := hq
  obtain ⟨q', hopen, hlater⟩ := exists_mem_openOf before hrequest hrequestId
    (fun c hc ↦ by simpa using hclosed c hc)
  rw [← hsplit, ← openRequests_eq_openOf] at hopen
  refine .inr ⟨_, List.mem_map_of_mem hopen, ⟨?_, fun _ _ ↦ rfl⟩, ?_⟩
  · simp [OrchestrationThreadActivity.closes, isClosing_settleDismissal,
      requestId?_settleDismissal, hrequestId]
  · refine consistentLe_activityLe.trans q q' _ ?_ (hdismiss _ hopen)
    rcases hlater with rfl | hlater
    · exact consistentLe_activityLe.refl q'
    · rw [InOrder, hsplit, List.pairwise_append] at hsorted
      exact (List.pairwise_cons.mp hsorted.2.1).1 q' hlater

/-- **Appended activities**, one after the other. -/
theorem threadFold_appended (js : JsRuntime) (commandId : CommandId) (now : IsoDateTime)
    (projects : List OrchestrationProject) (threadId : ThreadId)
    (added : List OrchestrationThreadActivity) (t : OrchestrationThread) :
    threadFold js projects threadId (added.map fun a ↦
        threadEvent commandId threadId now (.activityAppended a)) (some t) = some { t with
      activities := added.foldl (appendActivity js) t.activities
      updatedAt := if added = [] then t.updatedAt else now } := by
  induction added generalizing t with
  | nil => rfl
  | cons a added ih =>
    rw [List.map_cons, threadFold_threadEvent_cons]
    refine (ih _).trans ?_
    simp only [threadPatch, List.foldl_cons, reduceCtorEq, if_false, ite_self]

/-- **A thread that is settled is at rest.** -/
private theorem atRest_decideSettle {readModel : OrchestrationReadModel}
    {context : DecisionContext} {threadId : ThreadId} {type : String} {auto : Option IsoDateTime}
    {events : List PlannedOrchestrationEvent} {projects : List OrchestrationProject}
    (h : decideSettle js readModel context commandId threadId type auto = .ok events)
    (hfind : findThread readModel.threads threadId = some thread)
    (hsorted : InOrder js thread.activities)
    (hkeep : auto = none → (∀ request ∈ (openRequests js thread).entries,
        activityLe js request.2
          (settleDismissal commandId request.1 request.2 context.now) = true) ∧
      AppendsKeepClosed js thread.activities
        (settleDismissals js commandId thread context.now)) :
    ∀ t, threadFold js projects threadId events (some thread) = some t → AtRest js t := by
  simp only [decideSettle, requireThreadNotArchived_bind_eq_ok, ensure_bind_eq_ok,
    pure_eq_ok, hfind, Option.some.injEq] at h
  obtain ⟨_, rfl, -, -, hsession, hpending, -, rfl⟩ := h
  have hclosed : AllClosed js
      ((settleDismissals js commandId thread context.now).foldl (appendActivity js)
        thread.activities) := by
    cases auto with
    | none =>
      obtain ⟨hdismiss, hkeep⟩ := hkeep rfl
      refine (closedAfter_settleDismissals hsorted hdismiss hkeep).foldl_appendActivity hsorted id
        ?_ nodup_ids_settleDismissals
      simp only [settleDismissals, List.forall_mem_map]
      exact fun request _ ↦ rfl
    | some settledAt =>
      -- an automatic settlement dismisses nothing
      have hnone : (openRequests js thread).entries = [] := by
        simp only [Option.isNone_some, Bool.false_and, List.all_eq_true, OrderedMap.values,
          List.forall_mem_map] at hpending
        rw [List.eq_nil_iff_forall_not_mem]
        intro request hrequest
        exact absurd (hpending request hrequest) (by simp)
      rw [settleDismissals, hnone]
      exact openOf_eq_nil_iff.mp hnone
  rw [threadFold_append, threadFold_append]
  refine atRest_threadFold (by simp [ThreadEventPayload.type]) planned_companion
    (atRest_threadFold (by simp [ThreadEventPayload.type]) planned_companion fun t ht ↦ ?_)
  have hmap : (openRequests js thread).entries.map (fun request ↦ threadEvent commandId threadId
      context.now (.activityAppended
        (settleDismissal commandId request.1 request.2 context.now))) =
      (settleDismissals js commandId thread context.now).map fun a ↦
        threadEvent commandId threadId context.now (.activityAppended a) := by
    rw [settleDismissals, List.map_map]
    rfl
  rw [threadFold_threadEvent_cons, hmap] at ht
  obtain rfl := Option.some_inj.mp (ht.symm.trans (threadFold_appended js commandId context.now
    projects threadId (settleDismissals js commandId thread context.now)
    (threadPatch js projects context.now thread (.settled _ _) thread)))
  exact ⟨hclosed, hsession⟩

end Settle

/-! ## Commands of a settled thread -/

section Commands

variable {js} {readModel : OrchestrationReadModel} {thread : OrchestrationThread}
  {commandId : CommandId} {threadId : ThreadId} {projects : List OrchestrationProject}
  {events : List PlannedOrchestrationEvent}

/-- A thread is at rest if it is settled. -/
def RestsIfSettled (js : JsRuntime) (thread : OrchestrationThread) : Prop :=
  thread.settledOverride = some .settled → AtRest js thread

theorem AtRest.appendActivity {a : OrchestrationThreadActivity} {occurredAt : IsoDateTime}
    (h : AtRest js thread) (hsorted : InOrder js thread.activities) (hrequest : a.isRequest = false)
    (hkeep : AppendsKeepClosed js thread.activities [a]) :
    AtRest js (Orchestration.threadPatch js projects occurredAt thread (.activityAppended a)
      thread) :=
  ⟨h.closed.appendActivity hsorted hrequest hkeep, h.session⟩

/-- Activity that ends the settlement, whatever follows. -/
private theorem unsettled_of_activity {types : List String} {occurredAt updatedAt : IsoDateTime}
    {rest : List PlannedOrchestrationEvent} (htypes : "thread.settled" ∉ types)
    (hrest : ∀ event ∈ rest, Planned commandId threadId types event) :
    ∀ t, threadFold js projects threadId (threadEvent commandId threadId occurredAt
      (.unsettled .activity updatedAt) :: rest) (some thread) = some t →
      t.settledOverride ≠ some .settled := by
  rw [threadFold_threadEvent_cons]
  refine unsettled_threadFold htypes hrest fun t ht ↦ ?_
  obtain rfl := Option.some_inj.mp ht
  simp [threadPatch]

/-- Events that touch neither the requests, nor the session, nor settle. -/
theorem restsIfSettled_threadFold {types : List String} {thread : Option OrchestrationThread}
    (htypes : ∀ type ∈ types, type ∉ ["thread.activity-appended", "thread.reverted",
      "thread.session-set", "thread.settled"])
    (hevents : ∀ event ∈ events, Planned commandId threadId types event)
    (h : ∀ t, thread = some t → RestsIfSettled js t) :
    ∀ t, threadFold js projects threadId events thread = some t → RestsIfSettled js t := by
  refine threadFold_planned (Q := fun thread ↦ ∀ t, thread = some t → RestsIfSettled js t)
    (fun occurredAt payload thread htype hthread ↦ eventThread_of_patch (fun _ hsettled ↦ ?_)
      (fun t ht hsettled ↦ ?_) hthread) hevents h
  · simp [createdThread] at hsettled
  · have htypes := htypes _ htype
    simp only [List.mem_cons, List.not_mem_nil, or_false, not_or] at htypes
    by_cases hunsettled : payload.type = "thread.unsettled"
    · cases payload <;> simp only [ThreadEventPayload.type, String.reduceEq] at hunsettled
      simp only [threadPatch] at hsettled
      split at hsettled <;> cases hsettled
    · rw [settledOverride_threadPatch (by simp [hunsettled, htypes])] at hsettled
      exact (ht hsettled).threadPatch (by simp [htypes])

private theorem rests_decideSessionSet {session : OrchestrationSession} {createdAt : IsoDateTime}
    (h : decideSessionSet readModel commandId threadId session createdAt = .ok events)
    (hfind : findThread readModel.threads threadId = some thread)
    (hsettled : thread.settledOverride = some .settled) (hrest : AtRest js thread) :
    ∀ t, threadFold js projects threadId events (some thread) = some t → RestsIfSettled js t := by
  simp only [decideSessionSet, requireThread_bind_eq_ok, pure_eq_ok, hfind, Option.some.injEq] at h
  obtain ⟨_, rfl, rfl⟩ := h
  by_cases halive : session.status.alive = true
  · rw [if_pos ⟨by simp [hsettled], halive⟩, List.singleton_append]
    intro t ht hstill
    exact absurd hstill
      (unsettled_of_activity (by simp [ThreadEventPayload.type]) planned_single t ht)
  · rw [if_neg fun hboth ↦ halive hboth.2, List.nil_append]
    intro t ht _
    obtain rfl := Option.some_inj.mp ht
    exact ⟨hrest.closed, by simpa [threadPatch] using halive⟩

private theorem rests_decideActivityAppend {activity : OrchestrationThreadActivity}
    {createdAt : IsoDateTime}
    (h : decideActivityAppend readModel commandId threadId activity createdAt = .ok events)
    (hfind : findThread readModel.threads threadId = some thread)
    (hsettled : thread.settledOverride = some .settled) (hrest : AtRest js thread)
    (hsorted : InOrder js thread.activities)
    (hkeep : activity.isRequest = false → AppendsKeepClosed js thread.activities [activity]) :
    ∀ t, threadFold js projects threadId events (some thread) = some t → RestsIfSettled js t := by
  simp only [decideActivityAppend, requireThread_bind_eq_ok, pure_eq_ok, hfind,
    Option.some.injEq] at h
  obtain ⟨_, rfl, rfl⟩ := h
  by_cases hrequest : activity.isRequest = true
  · rw [if_pos ⟨by simp [hsettled], hrequest⟩, List.singleton_append]
    intro t ht hstill
    exact absurd hstill
      (unsettled_of_activity (by simp [ThreadEventPayload.type]) planned_single t ht)
  · rw [if_neg fun hboth ↦ hrequest hboth.2, List.nil_append]
    intro t ht _
    obtain rfl := Option.some_inj.mp ht
    rw [Bool.not_eq_true] at hrequest
    exact hrest.appendActivity hsorted hrequest (hkeep hrequest)

/-- A turn ends the settlement. -/
private theorem unsettled_decideTurnStart {start : TurnStart}
    (h : decideTurnStart readModel commandId threadId start = .ok events) :
    ∀ t, threadFold js projects threadId events (findThread readModel.threads threadId) = some t →
      t.settledOverride ≠ some .settled := by
  have hplanned := plans_turnStart events h
  simp only [decideTurnStart, ensure_bind_eq_ok, requireThread_bind_eq_ok] at h
  obtain ⟨-, thread, hfind, h⟩ := h
  obtain ⟨_, -, h⟩ := bind_eq_ok.mp h
  obtain rfl := pure_eq_ok.mp h
  rw [hfind]
  by_cases hsettled : thread.settledOverride = some .settled
  · have hsome : thread.settledOverride.isSome = true := by simp [hsettled]
    simp only [lifecycleResetEvents, if_pos hsome, List.append_assoc, List.cons_append]
      at hplanned ⊢
    exact unsettled_of_activity (by simp [ThreadCommand.emits])
      fun event he ↦ hplanned event (List.mem_cons_of_mem _ he)
  · refine unsettled_threadFold (by simp [ThreadCommand.emits]) hplanned fun t ht ↦ ?_
    obtain rfl := Option.some_inj.mp ht
    exact hsettled

private theorem rests_decideUserInputDismiss {context : DecisionContext}
    {requestId : ApprovalRequestId} {createdAt : IsoDateTime}
    (h : decideUserInputDismiss readModel context commandId threadId requestId createdAt =
      .ok events)
    (hrest : AtRest js thread) (hsorted : InOrder js thread.activities)
    (hkeep : ∀ request, context.userInputActivity = some request →
      AppendsKeepClosed js thread.activities [userInputDismissal requestId request createdAt]) :
    ∀ t, threadFold js projects threadId events (some thread) = some t → RestsIfSettled js t := by
  simp only [decideUserInputDismiss, requireThread_bind_eq_ok, expect_bind_eq_ok,
    ensure_bind_eq_ok, pure_eq_ok] at h
  obtain ⟨_, -, request, hrequest, -, rfl⟩ := h
  intro t ht _
  obtain rfl := Option.some_inj.mp ht
  exact hrest.appendActivity hsorted rfl (hkeep request (Option.filter_eq_some_iff.mp hrequest).1)

/-- An answer to an async question ends in a turn. -/
private theorem unsettled_asyncAnswer {clock : ℕ → IsoDateTime}
    {request : OrchestrationThreadActivity} {respond : UserInputRespond} {replies : List String}
    (h : decideCommandSequence js commandId clock readModel
      (asyncAnswer threadId request respond replies) = .ok events) :
    ∀ t, threadFold js readModel.projects threadId events (findThread readModel.threads threadId) =
      some t → t.settledOverride ≠ some .settled := by
  simp only [asyncAnswer, decideCommandSequence, bind_eq_ok, pure_eq_ok, Except.ok.injEq] at h
  obtain ⟨resolved, hresolved, rest, ⟨turn, hturn, _, rfl, rfl⟩, rfl⟩ := h
  simp only [decideSimpleCommand, decideWith, decideThreadCommand] at hresolved hturn
  have hevents : EventsOf threadId resolved := fun event he ↦
    (plans_activityAppend resolved hresolved event he).payload.imp fun _ hp ↦ hp.1
  rw [List.append_nil, threadFold_append, ← hevents.findThread_fold]
  exact unsettled_decideTurnStart hturn

private theorem rests_decideUserInputRespond {clock : ℕ → IsoDateTime} {context : DecisionContext}
    {respond : UserInputRespond}
    (h : decideUserInputRespond (decideCommandSequence js commandId clock readModel) readModel
      context commandId threadId respond = .ok events)
    (hfind : findThread readModel.threads threadId = some thread)
    (hsettled : thread.settledOverride = some .settled) (hrest : AtRest js thread)
    (hsorted : InOrder js thread.activities)
    (hkeep : context.userInputActivity.any (·.byMessage) = false →
      (respond.attachmentsByQuestionId.getD []).all (·.2.isEmpty) = false →
      AppendsKeepClosed js thread.activities
        [answerSubmitted commandId context.userInputActivity respond []]) :
    ∀ t, threadFold js readModel.projects threadId events (some thread) = some t →
      RestsIfSettled js t := by
  simp only [decideUserInputRespond, requireThread_bind_eq_ok] at h
  obtain ⟨_, -, h⟩ := h
  obtain ⟨questions, -, h⟩ := bind_eq_ok.mp h
  split at h
  · simp only [expect_bind_eq_ok] at h
    obtain ⟨asked, -, replies, -, h⟩ := h
    intro t ht hstill
    rw [← hfind] at ht
    exact absurd hstill (unsettled_asyncAnswer h t ht)
  · rename_i hasync
    split at h
    · obtain rfl := pure_eq_ok.mp h
      intro t ht _
      refine atRest_threadFold (by simp [ThreadEventPayload.type]) planned_single ?_ t ht
      intro t' ht'
      exact Option.some_inj.mp ht' ▸ hrest
    · rename_i hattached
      obtain ⟨history, hhistory, h⟩ := bind_eq_ok.mp h
      obtain rfl := pure_eq_ok.mp h
      rw [threadFold_append]
      refine restsIfSettled_threadFold (by simp [ThreadEventPayload.type]) planned_single
        (rests_decideActivityAppend hhistory hfind hsettled hrest hsorted fun _ ↦ ?_)
      refine (hkeep ?_ (by simpa using hattached)).congr rfl ?_
      · rw [Option.filter_eq_none_iff] at hasync
        simpa [Option.any_eq_false] using hasync
      · simp [OrchestrationThreadActivity.isClosing, answerSubmitted]

theorem activities_reverted {turnCount : ℕ} {occurredAt : IsoDateTime}
    {entry : OrchestrationThread} :
    (Orchestration.threadPatch js projects occurredAt thread (.reverted turnCount)
      entry).activities = thread.activities.filter (keptByRevert thread turnCount) := by
  simp only [Orchestration.threadPatch]
  rfl

/-- A history is imported into a thread at rest. -/
private theorem atRest_decideHistoryImport {messages : List ImportedMessage}
    (h : decideHistoryImport js readModel commandId threadId messages = .ok events)
    (hfind : findThread readModel.threads threadId = some thread) :
    ∀ t, threadFold js projects threadId events (some thread) = some t → AtRest js t := by
  have hplanned := plans_historyImport events h
  simp only [decideHistoryImport, requireThread_bind_eq_ok, ensure_bind_eq_ok, hfind,
    Option.some.injEq] at h
  obtain ⟨_, rfl, ⟨-, -, -, -, hsession, hopen⟩, -⟩ := h
  refine atRest_threadFold (by simp [ThreadCommand.emits]) hplanned fun t ht ↦ ?_
  obtain rfl := Option.some_inj.mp ht
  exact ⟨openOf_eq_nil_iff.mp (List.isEmpty_iff.mp hopen), by rw [hsession]; rfl⟩

/-- The types of event that bring work to a thread or settle it. -/
private theorem disjoint_emits {command : ThreadCommand} :
    (∀ type ∈ command.emits, type ∉ ["thread.activity-appended", "thread.reverted",
      "thread.session-set", "thread.settled"]) ∨
    command = .settle ∨ (∃ sequence settledAt, command = .autoSettle sequence settledAt) ∨
    (∃ messages, command = .historyImport messages) ∨
    (∃ session createdAt, command = .sessionSet session createdAt) ∨
    (∃ turnCount createdAt, command = .revertComplete turnCount createdAt) ∨
    (∃ activity createdAt, command = .activityAppend activity createdAt) ∨
    (∃ requestId createdAt, command = .userInputDismiss requestId createdAt) ∨
    ∃ respond, command = .userInputRespond respond := by
  cases command <;> simp [ThreadCommand.emits]

/-- What every thread keeps: its activities are in order, and it is at rest if it is settled. -/
private def Kept (js : JsRuntime) (thread : OrchestrationThread) : Prop :=
  InOrder js thread.activities ∧ RestsIfSettled js thread

/-- The commands that bring work to a settled thread. -/
private theorem rests_of_settled {dispatch : Dispatch} {command : ThreadCommand}
    (hid : dispatch.command.commandId = commandId)
    (hdecided : decideOrchestrationCommand js readModel dispatch.clock dispatch.userInputActivity
      ⟨commandId, .thread threadId command⟩ = .ok events)
    (hsettles : "thread.settled" ∉ command.emits)
    (hfind : findThread readModel.threads threadId = some thread)
    (hsettled : thread.settledOverride = some .settled) (hrest : AtRest js thread)
    (hsorted : InOrder js thread.activities)
    (hkeep : ThreadKeepsClosed js dispatch thread command) :
    ∀ t, threadFold js readModel.projects threadId events (some thread) = some t →
      RestsIfSettled js t := by
  obtain htypes | rfl | ⟨_, _, rfl⟩ | ⟨_, rfl⟩ | ⟨session, createdAt, rfl⟩ |
    ⟨turnCount, createdAt, rfl⟩ | ⟨activity, createdAt, rfl⟩ | ⟨requestId, createdAt, rfl⟩ |
    ⟨respond, rfl⟩ := @disjoint_emits command
  · refine restsIfSettled_threadFold htypes (planned_of_decide hdecided) fun t ht _ ↦ ?_
    exact Option.some_inj.mp ht ▸ hrest
  · simp [ThreadCommand.emits] at hsettles
  · simp [ThreadCommand.emits] at hsettles
  · simp [ThreadCommand.emits] at hsettles
  · exact rests_decideSessionSet hdecided hfind hsettled hrest
  · simp only [decideOrchestrationCommand, decideWith, decideThreadCommand, decidePlain,
      requireThread_bind_eq_ok, pure_eq_ok] at hdecided
    obtain ⟨_, -, rfl⟩ := hdecided
    intro t ht _
    obtain rfl := Option.some_inj.mp ht
    refine ⟨?_, ?_⟩
    · rw [activities_reverted]
      exact hrest.closed.filter (hkeep hsettled)
    · rw [session_threadPatch (by simp [ThreadEventPayload.type])]
      exact hrest.session
  · refine rests_decideActivityAppend hdecided hfind hsettled hrest hsorted fun hrequest ↦ ?_
    have hkeep := hkeep hsettled
    simp only [appendedToSettled, hrequest, Bool.false_eq_true, if_false] at hkeep
    exact hkeep (by simp)
  · refine rests_decideUserInputDismiss hdecided hrest hsorted fun request hrequest ↦ ?_
    have hkeep := hkeep hsettled
    have hactivity : dispatch.userInputActivity = some request := hrequest
    simp only [appendedToSettled, hactivity] at hkeep
    exact hkeep (by simp)
  · refine rests_decideUserInputRespond hdecided hfind hsettled hrest hsorted
      fun hasync hattached ↦ ?_
    have hkeep := hkeep hsettled
    have hasync' : dispatch.userInputActivity.any (·.byMessage) = false := hasync
    simp only [appendedToSettled, hasync', hattached, hid, Bool.or_self, Bool.false_eq_true,
      if_false] at hkeep
    exact hkeep (by simp)

/-- What settles is asked of a thread that exists. -/
private theorem exists_findThread_of_settles {clock : ℕ → IsoDateTime}
    {userInputActivity : Option OrchestrationThreadActivity} {command : ThreadCommand}
    (h : decideOrchestrationCommand js readModel clock userInputActivity
      ⟨commandId, .thread threadId command⟩ = .ok events)
    (hsettles : "thread.settled" ∈ command.emits) :
    ∃ thread, findThread readModel.threads threadId = some thread := by
  obtain rfl | ⟨_, _, rfl⟩ | ⟨messages, rfl⟩ := eq_settle_or_exists_eq hsettles <;>
    simp only [decideOrchestrationCommand, decideWith, decideThreadCommand, decideSettle,
      decideHistoryImport, requireThreadNotArchived_bind_eq_ok, requireThread_bind_eq_ok] at h
  all_goals exact h.imp fun _ hthread ↦ hthread.1

end Commands

/-! ## Runs -/

/-- **A settled thread has no open request, and its session is not alive**, in every run without a
command that drops what closed a request. -/
theorem settled_of_reaches {js : JsRuntime} {nowIso : IsoDateTime} {model : OrchestrationReadModel}
    {log : List PlannedOrchestrationEvent}
    (h : (commandModel js).Reaches (keepsClosed js) (createEmptyReadModel nowIso) model log) :
    ∀ t ∈ model.threads, t.settledOverride = some .settled →
      (openRequests js t).entries = [] ∧ ∀ session, t.session = some session →
        session.status ≠ .starting ∧ session.status ≠ .running := by
  have hkept : ∀ t ∈ model.threads, Kept js t := by
    refine thread_of_reaches (fun t at' ht ↦ ⟨ht.1, fun hsettled ↦
      ⟨(ht.2 hsettled).closed, (ht.2 hsettled).session⟩⟩) ?_ h
    intro model dispatch commandId threadId command events hthread hok hdispatch hdecided t ht
    have hthreads := threads_resolveRepositoryIdentity model dispatch
    have hplanned := planned_of_decide hdecided
    refine ⟨inOrder_threadFold hplanned (fun t ht ↦ (hthread t ht).1) t ht, ?_⟩
    simp only [keepsClosed, hdispatch] at hok
    by_cases hsettles : "thread.settled" ∈ command.emits
    · obtain ⟨thread, hfind⟩ := exists_findThread_of_settles hdecided hsettles
      rw [hthreads] at hfind
      rw [hfind] at ht
      have hkeep := hok thread hfind
      have hsorted := (hthread thread hfind).1
      obtain rfl | ⟨_, _, rfl⟩ | ⟨messages, rfl⟩ := eq_settle_or_exists_eq hsettles
      · refine fun _ ↦ atRest_decideSettle hdecided (by rw [hthreads, hfind]) hsorted
          (fun _ ↦ ?_) t ht
        simpa only [ThreadKeepsClosed, hdispatch] using hkeep
      · exact fun _ ↦ atRest_decideSettle hdecided (by rw [hthreads, hfind]) hsorted
          (fun hauto ↦ nomatch hauto) t ht
      · exact fun _ ↦ atRest_decideHistoryImport hdecided (by rw [hthreads, hfind]) t ht
    by_cases hsettled : ∀ t, findThread model.threads threadId = some t →
        t.settledOverride ≠ some .settled
    · exact fun hstill ↦ absurd hstill (unsettled_threadFold hsettles hplanned hsettled t ht)
    · push Not at hsettled
      obtain ⟨thread, hfind, hsettled⟩ := hsettled
      rw [hfind] at ht
      have hthread := hthread thread hfind
      exact rests_of_settled (congrArg _ hdispatch) hdecided hsettles (by rw [hthreads, hfind])
        hsettled (hthread.2 hsettled) hthread.1 (hok thread hfind) t ht
  intro t ht hsettled
  have hrest := (hkept t ht).2 hsettled
  refine ⟨openOf_eq_nil_iff.mpr hrest.closed, fun session hsession ↦ ?_⟩
  have halive := hrest.session
  rw [hsession] at halive
  cases hstatus : session.status <;> simp [hstatus, OrchestrationSessionStatus.alive] at halive ⊢

/-! ## A run in which a revert reopens a request -/

/-- An approval that is asked for outside of turns and granted in one, and the settlement. -/
def approveThenSettle : List Dispatch := createProjectAndThread ++
  [dispatchAt "2026-03-01T12:00:02.000Z" "c3" (.thread "t" (.activityAppend {
      id := "a1", tone := .approval, kind := "approval.requested", summary := "Approval requested"
      payload := .obj [("requestId", .str "r")], turnId := none
      createdAt := "2026-03-01T12:00:02.000Z" } "2026-03-01T12:00:02.000Z")),
    dispatchAt "2026-03-01T12:00:03.000Z" "c4" (.thread "t" (.activityAppend {
      id := "a2", tone := .approval, kind := "approval.resolved", summary := "Approval resolved"
      payload := .obj [("requestId", .str "r")], turnId := some "turn-1"
      createdAt := "2026-03-01T12:00:03.000Z" } "2026-03-01T12:00:03.000Z")),
    dispatchAt "2026-03-01T12:00:04.000Z" "c5" (.thread "t" .settle)]

/-- The same, and a revert to before the turn. -/
def settleThenRevert : List Dispatch := approveThenSettle ++
  [dispatchAt "2026-03-01T12:00:05.000Z" "c6"
    (.thread "t" (.revertComplete 0 "2026-03-01T12:00:05.000Z"))]

theorem settled_of_reaches_approve :
    ((commandModel plainRuntime).run (keepsClosed plainRuntime)
        (createEmptyReadModel "2026-03-01T12:00:00.000Z") approveThenSettle).1.threads.map
          (·.settledOverride) = [some .settled] ∧
    ∀ t ∈ ((commandModel plainRuntime).run (keepsClosed plainRuntime)
        (createEmptyReadModel "2026-03-01T12:00:00.000Z") approveThenSettle).1.threads,
      t.settledOverride = some .settled → (openRequests plainRuntime t).entries = [] ∧
        ∀ session, t.session = some session →
          session.status ≠ .starting ∧ session.status ≠ .running :=
  ⟨by decide, settled_of_reaches (EventSourced.reaches_run _ _ _ _)⟩

/-- A revert drops the resolution of a request that it keeps, on a thread that stays settled. -/
theorem not_settled_of_reaches :
    ¬ ∀ model log, (commandModel plainRuntime).Reaches anyCommand
        (createEmptyReadModel "2026-03-01T12:00:00.000Z") model log →
      ∀ t ∈ model.threads, t.settledOverride = some .settled →
        (openRequests plainRuntime t).entries = [] ∧ ∀ session, t.session = some session →
          session.status ≠ .starting ∧ session.status ≠ .running := by
  intro h
  have hrun := h _ _ (EventSourced.reaches_run (commandModel plainRuntime) anyCommand
    (createEmptyReadModel "2026-03-01T12:00:00.000Z") settleThenRevert)
  have hopen : ∃ t ∈ ((commandModel plainRuntime).run anyCommand
      (createEmptyReadModel "2026-03-01T12:00:00.000Z") settleThenRevert).1.threads,
      t.settledOverride = some .settled ∧
        (openRequests plainRuntime t).entries.map Prod.fst = ["r"] := by decide
  obtain ⟨t, ht, hsettled, hrequests⟩ := hopen
  rw [(hrun t ht hsettled).1] at hrequests
  cases hrequests

end Awen.Orchestration
