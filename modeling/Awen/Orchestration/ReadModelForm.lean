import Awen.Orchestration.DismissedLinks
import Awen.Orchestration.OpenRequests

/-!
# The form of read models

What the read model looks like after any list of events, whether or not a command plans them: ids
are unique, and the lists of a thread stay within their limits.
-/

namespace Awen.Orchestration

variable {js : JsRuntime} {α β : Type*} {key : α → β} {items : List α} {n : ℕ}

theorem lastItems_sublist (n : ℕ) (items : List α) : (lastItems n items).Sublist items :=
  List.drop_sublist _ _

-- so that it is not unfolded where it is compared with the field of a record
attribute [local irreducible] lastItems

/-- No more items than a limit, with different keys. -/
structure Capped (key : α → β) (n : ℕ) (items : List α) : Prop where
  nodup : (items.map key).Nodup
  length_le : items.length ≤ n

theorem capped_lastItems (h : (items.map key).Nodup) : Capped key n (lastItems n items) where
  nodup := h.sublist ((lastItems_sublist n items).map key)
  length_le := by rw [lastItems, List.length_drop]; omega

theorem nodup_stableSort (le : α → α → Bool) (h : (items.map key).Nodup) :
    ((stableSort le items).map key).Nodup :=
  ((stableSort_perm le items).map key).nodup_iff.mpr h

/-- An item in place of the one with its key. -/
theorem nodup_replace [DecidableEq β] (h : (items.map key).Nodup) (a : α) :
    ((items.filter (key · ≠ key a) ++ [a]).map key).Nodup := by
  rw [List.map_append, List.nodup_append]
  refine ⟨h.sublist (List.filter_sublist.map key), List.nodup_singleton _, fun k hk k' hk' ↦ ?_⟩
  obtain ⟨b, hb, rfl⟩ := List.mem_map.mp hk
  rw [List.mem_singleton.mp hk']
  simpa using (List.mem_filter.mp hb).2

/-- The lists of a thread. -/
structure ThreadLists (js : JsRuntime) (thread : OrchestrationThread) : Prop where
  messages : Capped (·.id) maxThreadMessages thread.messages
  checkpoints : Capped (·.turnId) maxThreadCheckpoints thread.checkpoints
  sorted : thread.checkpoints.Pairwise (·.checkpointTurnCount ≤ ·.checkpointTurnCount)
  proposedPlans : Capped (·.id) maxThreadProposedPlans thread.proposedPlans
  activities : (thread.activities.map (·.id)).Nodup
  inOrder : InOrder js thread.activities

theorem nodup_upsertMessage {messages : List OrchestrationMessage}
    (h : (messages.map (·.id)).Nodup) (payload : ThreadMessageSentPayload) :
    ((upsertMessage messages payload).map (·.id)).Nodup := by
  rw [upsertMessage]
  split
  · rw [List.map_map]
    refine (List.map_congr_left fun m _ ↦ ?_) ▸ h
    rw [Function.comp_apply]
    split <;> rfl
  · rename_i hany
    simpa [List.nodup_append, h] using hany

theorem sorted_sortCheckpoints (checkpoints : List OrchestrationCheckpointSummary) :
    (lastItems n (sortCheckpoints checkpoints)).Pairwise
      (·.checkpointTurnCount ≤ ·.checkpointTurnCount) := by
  have hle : ConsistentLe fun left right : OrchestrationCheckpointSummary ↦
      decide (left.checkpointTurnCount ≤ right.checkpointTurnCount) :=
    ⟨fun a b ↦ by simpa using Nat.le_total _ _, fun a b c ↦ by simpa using Nat.le_trans⟩
  exact ((hle.pairwise_stableSort checkpoints).imp of_decide_eq_true).sublist
    (lastItems_sublist _ _)

/-- **An event keeps the lists of a thread.** -/
theorem ThreadLists.threadPatch {projects : List OrchestrationProject} {occurredAt : IsoDateTime}
    {thread entry : OrchestrationThread} {payload : ThreadEventPayload}
    (hthread : ThreadLists js thread) (hentry : ThreadLists js entry) :
    ThreadLists js (threadPatch js projects occurredAt thread payload entry) := by
  obtain ⟨hmessages, hcheckpoints, hsorted, hplans, hactivities, hinOrder⟩ := hentry
  cases payload <;> rw [Orchestration.threadPatch]
  case messageSent payload =>
    exact ⟨capped_lastItems (nodup_upsertMessage hthread.messages.nodup payload), hcheckpoints,
      hsorted, hplans, hactivities, hinOrder⟩
  case proposedPlanUpserted plan =>
    exact ⟨hmessages, hcheckpoints, hsorted, capped_lastItems (nodup_stableSort _
      (nodup_replace hthread.proposedPlans.nodup plan)), hactivities, hinOrder⟩
  case activityAppended activity =>
    have hnodup := nodup_stableSort (activityLe js) (nodup_replace hthread.activities activity)
    exact ⟨hmessages, hcheckpoints, hsorted, hplans,
      hnodup.sublist ((retainThreadActivities_sublist _).map _), inOrder_appendActivity _ activity⟩
  case turnDiffCompleted checkpoint =>
    split
    · exact ⟨hmessages, hcheckpoints, hsorted, hplans, hactivities, hinOrder⟩
    · exact ⟨hmessages, capped_lastItems (nodup_stableSort _
        (nodup_replace hthread.checkpoints.nodup checkpoint)), sorted_sortCheckpoints _, hplans,
        hactivities, hinOrder⟩
  case reverted turnCount =>
    have hfilter {α β : Type} {key : α → β} {items : List α} (p : α → Bool)
        (h : (items.map key).Nodup) : ((items.filter p).map key).Nodup :=
      h.sublist (List.filter_sublist.map key)
    exact ⟨capped_lastItems (hfilter _ hthread.messages.nodup),
      capped_lastItems (nodup_stableSort _ (hfilter _ hthread.checkpoints.nodup)),
      sorted_sortCheckpoints _, capped_lastItems (hfilter _ hthread.proposedPlans.nodup),
      hfilter _ hthread.activities, hthread.inOrder.sublist List.filter_sublist⟩
  all_goals
    repeat' split
    all_goals exact ⟨hmessages, hcheckpoints, hsorted, hplans, hactivities, hinOrder⟩

/-- **The form of a read model.** -/
structure ReadModelForm (js : JsRuntime) (model : OrchestrationReadModel) : Prop where
  threadIds : ThreadIdsDistinct model
  projectIds : (model.projects.map (·.id)).Nodup
  links : LinksDistinct js model
  lists : ∀ thread ∈ model.threads, ThreadLists js thread

theorem nodup_projectProjectEvent {projects : List OrchestrationProject}
    (h : (projects.map (·.id)).Nodup) (projectId : ProjectId) (payload : ProjectEventPayload) :
    ((projectProjectEvent projectId payload projects).map (·.id)).Nodup := by
  have hmap {f : OrchestrationProject → OrchestrationProject} (hf : ∀ p, (f p).id = p.id) :
      ((projects.map f).map (·.id)).Nodup := by
    rw [List.map_map]
    exact (List.map_congr_left fun p _ ↦ hf p) ▸ h
  cases payload <;> rw [projectProjectEvent]
  case created payload =>
    split
    · refine hmap fun p ↦ ?_
      split
      · rename_i hid
        exact hid.symm
      · rfl
    · rename_i hany
      simpa [List.nodup_append, h, createdProject] using hany
  all_goals
    refine hmap fun p ↦ ?_
    split <;> rfl

theorem forall_updateThread {P : OrchestrationThread → Prop} {threads : List OrchestrationThread}
    {patch : OrchestrationThread → OrchestrationThread} {threadId : ThreadId}
    (h : ∀ thread ∈ threads, P thread) (hpatch : ∀ thread, P thread → P (patch thread)) :
    ∀ thread ∈ updateThread threads threadId patch, P thread := by
  refine List.forall_mem_map.mpr fun thread hthread ↦ ?_
  split
  · exact hpatch thread (h thread hthread)
  · exact h thread hthread

/-- **An event keeps the form.** -/
theorem ReadModelForm.projectEvent {model : OrchestrationReadModel} (h : ReadModelForm js model)
    (event : OrchestrationEvent) : ReadModelForm js (projectEvent js model event) where
  threadIds := h.threadIds.evolve event.toPlannedOrchestrationEvent
  links := h.links.evolve event.toPlannedOrchestrationEvent
  projectIds := by
    rw [Orchestration.projectEvent]
    split
    · exact nodup_projectProjectEvent h.projectIds _ _
    · exact h.projectIds
  lists := by
    rw [Orchestration.projectEvent]
    split
    · exact h.lists
    · rename_i threadId payload _
      by_cases hcreated : ∃ created, payload = .created created
      · obtain ⟨created, rfl⟩ := hcreated
        have hempty : ThreadLists js (createdThread threadId created) :=
          ⟨⟨List.nodup_nil, Nat.zero_le _⟩, ⟨List.nodup_nil, Nat.zero_le _⟩, .nil,
            ⟨List.nodup_nil, Nat.zero_le _⟩, List.nodup_nil, .nil⟩
        rw [projectThreadEvent, putThread]
        split
        · exact forall_updateThread h.lists fun _ _ ↦ hempty
        · exact List.forall_mem_append.mpr ⟨h.lists, List.forall_mem_singleton.mpr hempty⟩
      · rw [projectThreadEvent_of_ne_created (not_exists.mp hcreated)]
        cases hfind : findThread model.threads threadId with
        | none => exact h.lists
        | some thread =>
          exact forall_updateThread h.lists fun entry hentry ↦
            (h.lists thread (findThread_eq_some hfind).1).threadPatch hentry

/-- **The read model has this form after any list of events.** -/
theorem readModelForm_projectEventsOntoReadModel (nowIso : IsoDateTime)
    (events : List OrchestrationEvent) :
    ReadModelForm js (events.foldl (Orchestration.projectEvent js) (createEmptyReadModel nowIso)) :=
  foldl_invariant (P := ReadModelForm js) (fun _ event h ↦ h.projectEvent event)
    (by constructor <;> simp [ThreadIdsDistinct, LinksDistinct, createEmptyReadModel]) events

end Awen.Orchestration
