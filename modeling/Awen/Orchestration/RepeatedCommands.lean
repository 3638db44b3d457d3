import Awen.Orchestration.Settlement

/-!
# Lifecycle commands that are repeated

A command without events would be refused, so a lifecycle command that asks for what is already so
emits its event again, with the timestamps that the thread has. `Repeats` says of a decision that,
made on a given thread, it is accepted and changes nothing. Settling and snoozing check more than
the thread's lifecycle, so for them the clock matters: `repeatsAt` says when they can be repeated.
-/

namespace Awen.Orchestration

variable (js : JsRuntime)

/-- A decision, before the read model, the clock and the command's id are given. -/
abbrev ThreadDecision :=
  OrchestrationReadModel → DecisionContext → CommandId → Decision (List PlannedOrchestrationEvent)

/-- On a thread, at the times that meet a condition, a decision is accepted and changes nothing. -/
def Repeats (decision : ThreadDecision) (threadId : ThreadId) (at' : IsoDateTime → Prop)
    (thread : OrchestrationThread) : Prop :=
  ∀ readModel context commandId projects, findThread readModel.threads threadId = some thread →
    at' context.now → ∃ events, decision readModel context commandId = .ok events ∧
      threadFold js projects threadId events (some thread) = some thread

/-- An accepted decision leads to a thread on which it repeats. -/
def LeadsToRepeat (decision : ThreadDecision) (threadId : ThreadId)
    (at' : OrchestrationThread → IsoDateTime → Prop) : Prop :=
  ∀ readModel context commandId events, decision readModel context commandId = .ok events →
    ∃ thread after, findThread readModel.threads threadId = some thread ∧
      (∀ projects, threadFold js projects threadId events (some thread) = some after) ∧
      Repeats js decision threadId (at' after) after

section Commands

variable {js} {threadId : ThreadId} {at' : IsoDateTime → Prop} {thread : OrchestrationThread}

/-- A decision repeats if it is one event that says what the thread already says. -/
theorem repeats_of_event {decision : ThreadDecision} (payload : ThreadEventPayload)
    (hdecision : ∀ (readModel : OrchestrationReadModel) context commandId,
      findThread readModel.threads threadId = some thread → at' context.now →
      decision readModel context commandId =
        .ok [threadEvent commandId threadId context.now payload])
    (hpatch : ∀ projects occurredAt,
      eventThread js projects occurredAt threadId payload (some thread) = some thread) :
    Repeats js decision threadId at' thread :=
  fun readModel context commandId projects hfind hat ↦
    ⟨_, hdecision readModel context commandId hfind hat, hpatch projects context.now⟩

private theorem leadsToRepeat_unsettle :
    LeadsToRepeat js (fun readModel context commandId ↦
      decideUnsettle readModel context commandId threadId) threadId fun _ _ ↦ True := by
  intro readModel context commandId events h
  simp only [decideUnsettle, requireThreadNotArchived_bind_eq_ok, pure_eq_ok] at h
  obtain ⟨thread, hfind, harchived, rfl⟩ := h
  refine ⟨thread, _, hfind, fun _ ↦ rfl, repeats_of_event (.unsettled .user
    (if thread.settledOverride = some .active then thread.updatedAt else context.now)) ?_ ?_⟩
  · intro readModel' context' commandId' hfind' _
    simp only [decideUnsettle, requireThreadNotArchived_bind_eq_ok, pure_eq_ok, hfind',
      Option.some.injEq]
    exact ⟨_, rfl, harchived, by simp⟩
  · simp [eventThread, threadPatch]

private theorem leadsToRepeat_unsnooze :
    LeadsToRepeat js (fun readModel context commandId ↦
      decideUnsnooze readModel context commandId threadId) threadId fun _ _ ↦ True := by
  intro readModel context commandId events h
  simp only [decideUnsnooze, requireThreadNotArchived_bind_eq_ok, pure_eq_ok] at h
  obtain ⟨thread, hfind, harchived, rfl⟩ := h
  refine ⟨thread, _, hfind, fun _ ↦ rfl, repeats_of_event (.unsnoozed .user
    (if thread.snoozedUntil.isNone then thread.updatedAt else context.now)) ?_ ?_⟩
  · intro readModel' context' commandId' hfind' _
    simp only [decideUnsnooze, requireThreadNotArchived_bind_eq_ok, pure_eq_ok, hfind',
      Option.some.injEq]
    exact ⟨_, rfl, harchived, by simp⟩
  · simp [eventThread, threadPatch]

private theorem leadsToRepeat_unpin :
    LeadsToRepeat js (fun readModel context commandId ↦
      decideUnpin readModel context commandId threadId) threadId fun _ _ ↦ True := by
  intro readModel context commandId events h
  simp only [decideUnpin, requireThreadNotArchived_bind_eq_ok, pure_eq_ok] at h
  obtain ⟨thread, hfind, harchived, rfl⟩ := h
  refine ⟨thread, _, hfind, fun _ ↦ rfl, repeats_of_event (.unpinned
    (if thread.pinnedAt.isNone then thread.updatedAt else context.now)) ?_ ?_⟩
  · intro readModel' context' commandId' hfind' _
    simp only [decideUnpin, requireThreadNotArchived_bind_eq_ok, pure_eq_ok, hfind',
      Option.some.injEq]
    exact ⟨_, rfl, harchived, by simp⟩
  · simp [eventThread, threadPatch]

private theorem leadsToRepeat_pinReorder {orderKey : String} :
    LeadsToRepeat js (fun readModel context commandId ↦
      decidePinReorder readModel context commandId threadId orderKey) threadId
      fun _ _ ↦ True := by
  intro readModel context commandId events h
  simp only [decidePinReorder, requireThreadNotArchived_bind_eq_ok, ensure_bind_eq_ok,
    pure_eq_ok] at h
  obtain ⟨thread, hfind, harchived, hpinned, rfl⟩ := h
  refine ⟨thread, _, hfind, fun _ ↦ rfl, repeats_of_event (.pinReordered orderKey
    (if thread.pinOrderKey = some orderKey then thread.updatedAt else context.now)) ?_ ?_⟩
  · intro readModel' context' commandId' hfind' _
    simp only [decidePinReorder, requireThreadNotArchived_bind_eq_ok, ensure_bind_eq_ok,
      pure_eq_ok, hfind', Option.some.injEq]
    exact ⟨_, rfl, harchived, hpinned, by simp⟩
  · simp [eventThread, threadPatch]

/-- A snooze repeats until its wake time, as long as no turn start is queued. -/
private theorem leadsToRepeat_snooze {snoozedUntil : IsoDateTime} :
    LeadsToRepeat js (fun readModel context commandId ↦
      decideSnooze js readModel context commandId threadId snoozedUntil) threadId
      fun thread now ↦ dateLt js now snoozedUntil = true ∧
        hasQueuedTurnStartForThread js thread now = false := by
  intro readModel context commandId events h
  simp only [decideSnooze, requireThreadNotArchived_bind_eq_ok, ensure_bind_eq_ok,
    pure_eq_ok] at h
  obtain ⟨thread, hfind, harchived, -, hopen, -, rfl⟩ := h
  refine ⟨thread, _, hfind, fun _ ↦ rfl, repeats_of_event (.snoozed snoozedUntil
    ((thread.snoozedAt.filter fun _ ↦ thread.snoozedUntil = some snoozedUntil).getD context.now)
    (if (thread.snoozedAt.filter fun _ ↦ thread.snoozedUntil = some snoozedUntil).isSome
      then thread.updatedAt else context.now)) ?_ ?_⟩
  · intro readModel' context' commandId' hfind' hat
    simp only [decideSnooze, requireThreadNotArchived_bind_eq_ok, ensure_bind_eq_ok, pure_eq_ok,
      hfind', Option.some.injEq]
    exact ⟨_, rfl, harchived, hat.1, hopen, hat.2, by simp [Option.filter]⟩
  · simp [eventThread, threadPatch]

/-- A pin repeats on a thread that is pinned, and neither settled nor snoozed. -/
private theorem repeats_pin {orderKey : Option String} (harchived : thread.archivedAt = none)
    (hpinned : thread.pinnedAt.isSome = true)
    (hunsettled : thread.settledOverride ≠ some .settled) (hawake : thread.snoozedUntil = none) :
    Repeats js (fun readModel context commandId ↦
      decidePin readModel context commandId threadId orderKey) threadId at' thread := by
  obtain ⟨pinnedAt, hpinnedAt⟩ := Option.isSome_iff_exists.mp hpinned
  refine repeats_of_event (.pinned pinnedAt none thread.updatedAt) ?_ ?_
  · intro readModel context commandId hfind _
    simp only [decidePin, requireThreadNotArchived_bind_eq_ok, pure_eq_ok, hfind,
      Option.some.injEq]
    exact ⟨_, rfl, harchived, by simp [hpinnedAt, hunsettled, hawake]⟩
  · simp [eventThread, threadPatch, ← hpinnedAt]

/-- Pinning promotes once. -/
private theorem leadsToRepeat_pin {orderKey : Option String} :
    LeadsToRepeat js (fun readModel context commandId ↦
      decidePin readModel context commandId threadId orderKey) threadId fun _ _ ↦ True := by
  intro readModel context commandId events h
  simp only [decidePin, requireThreadNotArchived_bind_eq_ok, pure_eq_ok] at h
  obtain ⟨thread, hfind, harchived, rfl⟩ := h
  refine ⟨thread, { thread with
      pinnedAt := some (thread.pinnedAt.getD context.now)
      pinOrderKey := (if thread.pinnedAt.isNone then orderKey else none).or thread.pinOrderKey
      settledOverride := if thread.settledOverride = some .settled then some .active
        else thread.settledOverride
      settledAt := if thread.settledOverride = some .settled then none else thread.settledAt
      unsettledAt := if thread.settledOverride = some .settled then some context.now
        else thread.unsettledAt
      snoozedUntil := none
      snoozedAt := if thread.snoozedUntil.isSome then none else thread.snoozedAt
      updatedAt := if thread.pinnedAt.isSome ∧ thread.settledOverride ≠ some .settled ∧
        thread.snoozedUntil = none then thread.updatedAt else context.now },
    hfind, fun projects ↦ ?_, repeats_pin harchived rfl ?_ rfl⟩
  · by_cases hsettled : thread.settledOverride = some .settled <;>
      cases hsnoozed : thread.snoozedUntil <;>
      simp [eventThread, threadPatch, hsettled, hsnoozed]
  · by_cases hsettled : thread.settledOverride = some .settled <;> simp [hsettled]

/-- A settlement repeats on a settled thread with nothing open, as long as no turn start is
queued. -/
private theorem repeats_settle {type : String} (harchived : thread.archivedAt = none)
    (hsettled : IsSettled thread)
    (hunsettled : thread.unsettledAt = none) (horder : thread.activeOrderKey = none)
    (hsession : thread.session.all (fun session ↦ !session.status.alive) = true) :
    Repeats js (fun readModel context commandId ↦
      decideSettle js readModel context commandId threadId type none) threadId
      (fun now ↦ (openRequests js thread).entries = [] ∧
        hasQueuedTurnStartForThread js thread now = false) thread := by
  obtain ⟨settledAt, hsettledAt⟩ := Option.isSome_iff_exists.mp hsettled.settledAt
  have halready : alreadySettledAt thread = some settledAt := by
    simp [alreadySettledAt, Option.filter, hsettledAt, hsettled.settledOverride]
  refine repeats_of_event (.settled settledAt thread.updatedAt) ?_ ?_
  · intro readModel context commandId hfind hat
    refine decideSettle_eq_ok.mpr ⟨thread, hfind, harchived, .inl rfl, hsession,
      by simp [hat.1], hat.2, ?_⟩
    simp [halready, settleDismissals, hat.1, hsettled.pinnedAt, hsettled.snoozedUntil]
  · intro projects occurredAt
    have hoverride := hsettled.settledOverride
    cases thread
    simp_all [eventThread, threadPatch]

/-- A settlement that leaves nothing open repeats as long as no turn start is queued. -/
private theorem leadsToRepeat_settle {type : String} :
    LeadsToRepeat js (fun readModel context commandId ↦
      decideSettle js readModel context commandId threadId type none) threadId
      fun thread now ↦ (openRequests js thread).entries = [] ∧
        hasQueuedTurnStartForThread js thread now = false := by
  intro readModel context commandId events h
  obtain ⟨thread, hfind, harchived, -, hsession, -⟩ := decideSettle_eq_ok.mp h
  exact ⟨thread, _, hfind, fun _ ↦ threadFold_decideSettle h hfind,
    repeats_settle harchived ⟨rfl, rfl, rfl, rfl⟩ rfl rfl hsession⟩

end Commands

/-! ## All lifecycle commands -/

/-- The commands that move a thread through its lifecycle. -/
def ThreadCommand.isLifecycle : ThreadCommand → Bool
  | .settle | .unsettle | .snooze _ | .unsnooze | .pin _ | .unpin | .pinReorder _ => true
  | _ => false

/-- When a lifecycle command can be repeated on the thread it has led to: a snooze before its wake
time, and a snooze or a settlement while no turn start is queued; a settlement also needs to have
left nothing open. -/
def ThreadCommand.repeatsAt (js : JsRuntime) (command : ThreadCommand)
    (thread : OrchestrationThread) (now : IsoDateTime) : Prop :=
  match command with
  | .settle => (openRequests js thread).entries = [] ∧
      hasQueuedTurnStartForThread js thread now = false
  | .snooze snoozedUntil => dateLt js now snoozedUntil = true ∧
      hasQueuedTurnStartForThread js thread now = false
  | _ => True

private theorem leadsToRepeat_lifecycle {js : JsRuntime} {threadId : ThreadId}
    {command : ThreadCommand} (h : command.isLifecycle = true) :
    ∃ decision, LeadsToRepeat js decision threadId (command.repeatsAt js) ∧
      ∀ model (dispatch : Dispatch), dispatch.command.body = .thread threadId command →
        (commandModel js).decide model dispatch = decision model
          ⟨dispatch.clock 0, dispatch.userInputActivity⟩ dispatch.command.commandId := by
  cases command <;> simp only [ThreadCommand.isLifecycle, Bool.false_eq_true] at h
  case settle => exact ⟨_, leadsToRepeat_settle, fun _ _ ↦ decide_thread⟩
  case unsettle => exact ⟨_, leadsToRepeat_unsettle, fun _ _ ↦ decide_thread⟩
  case snooze => exact ⟨_, leadsToRepeat_snooze, fun _ _ ↦ decide_thread⟩
  case unsnooze => exact ⟨_, leadsToRepeat_unsnooze, fun _ _ ↦ decide_thread⟩
  case pin => exact ⟨_, leadsToRepeat_pin, fun _ _ ↦ decide_thread⟩
  case unpin => exact ⟨_, leadsToRepeat_unpin, fun _ _ ↦ decide_thread⟩
  case pinReorder => exact ⟨_, leadsToRepeat_pinReorder, fun _ _ ↦ decide_thread⟩

/-- An accepted command of a thread, as a fold over that thread. -/
private theorem findThread_decided {js : JsRuntime} {model : OrchestrationReadModel}
    {dispatch : Dispatch} {threadId : ThreadId} {command : ThreadCommand}
    {events : List PlannedOrchestrationEvent}
    (hbody : dispatch.command.body = .thread threadId command)
    (hdecided : (commandModel js).decide model dispatch = .ok events) :
    findThread ((commandModel js).fold model events).threads threadId =
      threadFold js model.projects threadId events (findThread model.threads threadId) := by
  obtain ⟨⟨commandId, body⟩, clock, userInputActivity, repositoryIdentity⟩ := dispatch
  obtain rfl : body = .thread threadId command := hbody
  exact (eventsOf_of_decide hdecided).findThread_fold model

/-- **Lifecycle commands are idempotent.** Decided a second time on the thread it has led to, by any
clock at which it can be repeated, a lifecycle command is accepted and leaves the thread as it is,
with all of its timestamps. -/
theorem lifecycle_idempotent {js : JsRuntime} {model : OrchestrationReadModel}
    {dispatch : Dispatch} {threadId : ThreadId} {command : ThreadCommand}
    {events : List PlannedOrchestrationEvent} (hlifecycle : command.isLifecycle = true)
    (hbody : dispatch.command.body = .thread threadId command)
    (hdecided : (commandModel js).decide ((commandModel js).prepare model dispatch) dispatch =
      .ok events) :
    ∃ thread, findThread ((commandModel js).fold ((commandModel js).prepare model dispatch)
        events).threads threadId = some thread ∧
      ∀ again : Dispatch, again.command.body = .thread threadId command →
        command.repeatsAt js thread (again.clock 0) →
        ∃ events', (commandModel js).decide ((commandModel js).prepare ((commandModel js).fold
            ((commandModel js).prepare model dispatch) events) again) again = .ok events' ∧
          findThread ((commandModel js).fold ((commandModel js).prepare ((commandModel js).fold
            ((commandModel js).prepare model dispatch) events) again) events').threads threadId =
              some thread := by
  obtain ⟨decision, hrepeat, hdecide⟩ := @leadsToRepeat_lifecycle js threadId command hlifecycle
  obtain ⟨thread, after, hfind, hfold, hafter⟩ :=
    hrepeat _ _ _ events ((hdecide _ _ hbody).symm.trans hdecided)
  have hthread : findThread ((commandModel js).fold ((commandModel js).prepare model dispatch)
      events).threads threadId = some after := by
    rw [findThread_decided hbody hdecided, hfind, hfold]
  refine ⟨after, hthread, fun again hagain hrepeats ↦ ?_⟩
  have hprepared : findThread ((commandModel js).prepare ((commandModel js).fold
      ((commandModel js).prepare model dispatch) events) again).threads threadId = some after := by
    rw [← hthread]
    exact congrArg (findThread · threadId) (threads_resolveRepositoryIdentity _ again)
  obtain ⟨events', hevents', hfold'⟩ := hafter _ ⟨again.clock 0, again.userInputActivity⟩
    again.command.commandId _ hprepared hrepeats
  have hdecided' := (hdecide _ again hagain).trans hevents'
  refine ⟨events', hdecided', ?_⟩
  rw [findThread_decided hagain hdecided', hprepared, hfold']

/-! ## A snooze that is over -/

/-- Snooze the thread for a second. -/
def snoozeShortly (now : IsoDateTime) : Dispatch :=
  dispatchAt now "c3" (.thread "t" (.snooze "2026-03-01T12:00:03.000Z"))

/-- The read model with one thread. -/
def oneThreadModel : OrchestrationReadModel :=
  ((commandModel plainRuntime).run anyCommand (createEmptyReadModel "2026-03-01T12:00:00.000Z")
    createProjectAndThread).1

/-- Pin the thread. -/
def pinThread (now : IsoDateTime) : Dispatch := dispatchAt now "c3" (.thread "t" (.pin none))

theorem lifecycle_idempotent_pin :
    ∃ after thread repeated, (commandModel plainRuntime).step oneThreadModel
        (pinThread "2026-03-01T12:00:02.000Z") = .ok after ∧
      findThread after.threads "t" = some thread ∧ (commandModel plainRuntime).step after
        (pinThread "2026-03-01T12:00:09.000Z") = .ok repeated ∧
      findThread repeated.threads "t" = some thread := by
  obtain ⟨after, hstep, -⟩ := EventSourced.exists_eq_ok_of_any (p := fun _ ↦ true)
    (show ((commandModel plainRuntime).step oneThreadModel
      (pinThread "2026-03-01T12:00:02.000Z")).toOption.any (fun _ ↦ true) = true by
      decide +kernel)
  obtain ⟨events, hevents, rfl⟩ := EventSourced.step_eq_ok.mp hstep
  obtain ⟨thread, hthread, hagain⟩ := lifecycle_idempotent rfl rfl hevents
  obtain ⟨events', hevents', hrepeated⟩ :=
    hagain (pinThread "2026-03-01T12:00:09.000Z") rfl trivial
  exact ⟨_, thread, _, hstep, hthread, EventSourced.step_eq_ok.mpr ⟨_, hevents', rfl⟩, hrepeated⟩

/-- A snooze is refused once its wake time has come. -/
theorem not_lifecycle_idempotent :
    ¬ ∀ model log, (commandModel plainRuntime).Reaches anyCommand
        (createEmptyReadModel "2026-03-01T12:00:00.000Z") model log →
      ∀ (dispatch again : Dispatch) (threadId : ThreadId) (command : ThreadCommand) after,
        command.isLifecycle = true → dispatch.command.body = .thread threadId command →
        (commandModel plainRuntime).step model dispatch = .ok after →
        again.command = dispatch.command →
        dateLt plainRuntime (dispatch.clock 0) (again.clock 0) = true →
        ∃ repeated, (commandModel plainRuntime).step after again = .ok repeated ∧
          findThread repeated.threads threadId = findThread after.threads threadId := by
  intro h
  obtain ⟨after, hstep, hrefused⟩ := EventSourced.exists_eq_ok_of_any
    (show ((commandModel plainRuntime).step oneThreadModel
      (snoozeShortly "2026-03-01T12:00:02.000Z")).toOption.any (fun after ↦
        ((commandModel plainRuntime).step after
          (snoozeShortly "2026-03-01T12:00:04.000Z")).toOption.isNone) = true by decide +kernel)
  obtain ⟨repeated, hrepeated, -⟩ := h oneThreadModel _ (EventSourced.reaches_run _ _ _ _) _
    (snoozeShortly "2026-03-01T12:00:04.000Z") "t" _ after rfl rfl hstep rfl (by decide)
  rw [hrepeated] at hrefused
  cases hrefused

end Awen.Orchestration
