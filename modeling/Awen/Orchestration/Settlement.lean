import Awen.Orchestration.OpenQuestions
import Awen.Orchestration.SettledThreads

/-!
# What a settlement does

`threadFold_decideSettle` is the thread after an accepted settlement, field by field. Its override,
its pin and its snooze are what they should be in any case; whether its requests are dismissed
depends on where the dismissals stand among the activities and on what the retention cap drops:
`openOf_dismissed_eq_nil_iff`.
-/

namespace Awen.Orchestration

variable (js : JsRuntime)

/-! ## Activities in their places -/

/-- A new activity in its place, with nothing trimmed. -/
def placeActivity (activities : List OrchestrationThreadActivity)
    (activity : OrchestrationThreadActivity) : List OrchestrationThreadActivity :=
  stableSort (activityLe js) (activities ++ [activity])

section Place

variable {js} {activities before after added : List OrchestrationThreadActivity}
  {q a : OrchestrationThreadActivity}

theorem inOrder_placeActivity (activities : List OrchestrationThreadActivity)
    (a : OrchestrationThreadActivity) : InOrder js (placeActivity js activities a) :=
  consistentLe_activityLe.pairwise_stableSort _

theorem mem_placeActivity {c : OrchestrationThreadActivity} :
    c ∈ placeActivity js activities a ↔ c ∈ activities ∨ c = a := by
  simp [placeActivity]

/-- The new activity stands between those that are not greater and those that are. -/
theorem exists_placeActivity_eq (hsorted : InOrder js activities)
    (a : OrchestrationThreadActivity) :
    ∃ before after, activities = before ++ after ∧
      placeActivity js activities a = before ++ a :: after ∧
      (∀ c ∈ before, activityLe js c a = true) ∧ ∀ c ∈ after, activityLe js c a = false := by
  refine ⟨activities.takeWhile (activityLe js · a), activities.dropWhile (activityLe js · a),
    List.takeWhile_append_dropWhile.symm, consistentLe_activityLe.stableSort_concat hsorted a,
    fun c hc ↦ List.mem_takeWhile_imp (p := (activityLe js · a)) hc, fun c hc ↦ ?_⟩
  by_contra hle
  rw [Bool.not_eq_false] at hle
  have hrest : InOrder js (activities.dropWhile (activityLe js · a)) :=
    List.Pairwise.sublist (List.dropWhile_sublist _) hsorted
  have hfirst := List.head?_dropWhile_not (activityLe js · a) activities
  cases hcases : activities.dropWhile (activityLe js · a) with
  | nil => simp [hcases] at hc
  | cons x rest =>
    rw [hcases] at hc hrest hfirst
    have hfirst : activityLe js x a = false := hfirst
    have hx : activityLe js x c = true := by
      rcases List.mem_cons.mp hc with rfl | hc
      · exact consistentLe_activityLe.refl c
      · exact (List.pairwise_cons.mp hrest).1 c hc
    rw [consistentLe_activityLe.trans x c a hx hle] at hfirst
    cases hfirst

/-- **Trimming before an activity takes its place and after it is trimming after it.** -/
theorem retain_placeActivity_retain (hsorted : InOrder js activities) (ha : a.isAsync = false) :
    retainThreadActivities (placeActivity js (retainThreadActivities activities) a) =
      retainThreadActivities (placeActivity js activities a) := by
  obtain ⟨before, after, rfl, hplace, hbefore, hafter⟩ := exists_placeActivity_eq hsorted a
  have hkept := filterRest_append keptBefore before after
  have htrimmed : placeActivity js (retainThreadActivities (before ++ after)) a =
      filterRest (fun q rest ↦ keptBefore q (rest ++ after)) before ++
        a :: filterRest keptBefore after := by
    have hbefore' : ∀ c ∈ filterRest (fun q rest ↦ keptBefore q (rest ++ after)) before,
        activityLe js c a = true := fun c hc ↦ hbefore c ((filterRest_sublist _ _).subset hc)
    have hafter' : (filterRest keptBefore after).takeWhile (activityLe js · a) = [] ∧
        (filterRest keptBefore after).dropWhile (activityLe js · a) =
          filterRest keptBefore after := by
      cases hrest : filterRest keptBefore after with
      | nil => simp
      | cons x rest =>
        have hx := hafter x ((filterRest_sublist keptBefore after).subset (by simp [hrest]))
        simp [hx]
    rw [retainThreadActivities_eq, hkept, placeActivity, consistentLe_activityLe.stableSort_concat,
      List.takeWhile_append_of_pos hbefore', List.dropWhile_append_of_pos hbefore', hafter'.1,
      hafter'.2, List.append_nil]
    rw [← hkept]
    exact List.Pairwise.sublist (filterRest_sublist _ _) hsorted
  rw [htrimmed, hplace, retainThreadActivities_eq, retainThreadActivities_eq]
  exact filterRest_insert before ha

/-- Where an activity stands after another one has taken its place. -/
theorem exists_placeActivity_split {before after : List OrchestrationThreadActivity}
    (hsorted : InOrder js (before ++ q :: after)) (a : OrchestrationThreadActivity) :
    ∃ before' after', placeActivity js (before ++ q :: after) a = before' ++ q :: after' ∧
      ∀ c, c ∈ after' ↔ c ∈ after ∨ (c = a ∧ activityLe js q a = true) := by
  obtain ⟨u, v, huv, hplace, hu, hv⟩ := exists_placeActivity_eq hsorted a
  rw [hplace]
  obtain ⟨w, rfl, hw⟩ | ⟨w, rfl, hw⟩ := List.append_eq_append_iff.mp huv
  · cases w with
    | nil =>
      -- the new activity stands directly before this one
      rw [List.nil_append] at hw
      subst hw
      have hq := hv q List.mem_cons_self
      exact ⟨before ++ [] ++ [a], after, by simp, by simp [hq]⟩
    | cons x w =>
      obtain ⟨rfl, rfl⟩ := List.cons.inj hw
      have hq := hu q (by simp)
      refine ⟨before, w ++ a :: v, by simp, fun c ↦ ?_⟩
      simp [hq, or_comm, or_assoc]
  · have hq := hv q (by simp [hw])
    subst hw
    exact ⟨u ++ a :: w, after, by simp, by simp [hq]⟩

/-- **Where an activity stands after others have taken their places.** -/
theorem exists_foldl_placeActivity_split {before after : List OrchestrationThreadActivity}
    (hsorted : InOrder js (before ++ q :: after)) (added : List OrchestrationThreadActivity) :
    ∃ before' after', added.foldl (placeActivity js) (before ++ q :: after) =
        before' ++ q :: after' ∧
      ∀ c, c ∈ after' ↔ c ∈ after ∨ (c ∈ added ∧ activityLe js q c = true) := by
  induction added generalizing before after with
  | nil => exact ⟨before, after, rfl, by simp⟩
  | cons a added ih =>
    obtain ⟨u, v, hplace, hv⟩ := exists_placeActivity_split hsorted a
    have hnext : InOrder js (placeActivity js (before ++ q :: after) a) :=
      inOrder_placeActivity _ a
    rw [hplace] at hnext
    obtain ⟨before', after', hfold, hafter'⟩ := ih hnext
    refine ⟨before', after', by rw [List.foldl_cons, hplace, hfold], fun c ↦ ?_⟩
    rw [hafter', hv, List.mem_cons, or_assoc]
    refine or_congr_right ⟨?_, ?_⟩
    · rintro (⟨rfl, hle⟩ | ⟨hc, hle⟩)
      · exact ⟨.inl rfl, hle⟩
      · exact ⟨.inr hc, hle⟩
    · rintro ⟨rfl | hc, hle⟩
      · exact .inl ⟨rfl, hle⟩
      · exact .inr ⟨hc, hle⟩

/-- Where an activity stood before others took their places. -/
theorem exists_of_foldl_placeActivity_eq {before after : List OrchestrationThreadActivity}
    (hsorted : InOrder js activities) (hq : q ∉ added)
    (h : added.foldl (placeActivity js) activities = before ++ q :: after) :
    ∃ before' after', activities = before' ++ q :: after' ∧ (∀ c ∈ after', c ∈ after) ∧
      ∀ a ∈ added, activityLe js q a = true → a ∈ after := by
  induction added generalizing activities with
  | nil => exact ⟨before, after, h, fun _ ↦ id, by simp⟩
  | cons a added ih =>
    rw [List.mem_cons, not_or] at hq
    obtain ⟨u, v, hplace, hv, hadded⟩ := ih (inOrder_placeActivity _ _) hq.2 h
    obtain ⟨before', after', hsplit, hafter, ha⟩ := exists_of_stableSort_eq hsorted hq.1 hplace
    refine ⟨before', after', hsplit, fun c hc ↦ hv c (hafter c hc), ?_⟩
    rw [List.forall_mem_cons]
    exact ⟨fun hle ↦ hv a (ha hle), hadded⟩

/-- **Activities that are appended are trimmed once**, if they have new ids and ask for nothing. -/
theorem foldl_appendActivity_eq (hsorted : InOrder js activities) (hadded : added ≠ [])
    (hnew : ∀ c ∈ activities, c.id ∉ added.map (·.id)) (hids : (added.map (·.id)).Nodup)
    (hasync : ∀ a ∈ added, a.isAsync = false) :
    added.foldl (appendActivity js) activities =
      retainThreadActivities (added.foldl (placeActivity js) activities) := by
  -- after the first one the activities are trimmed, and stay what trimming the others gives
  suffices h : ∀ kept, kept = activities ∨ kept = retainThreadActivities activities →
      added.foldl (appendActivity js) kept =
        retainThreadActivities (added.foldl (placeActivity js) activities) from h _ (.inl rfl)
  induction added generalizing activities with
  | nil => exact absurd rfl hadded
  | cons a added ih =>
    intro kept hkept
    rw [List.map_cons, List.nodup_cons] at hids
    have hsublist : kept.Sublist activities := by
      rcases hkept with rfl | rfl
      · exact List.Sublist.refl _
      · exact retainThreadActivities_sublist _
    have hothers : kept.filter (·.id ≠ a.id) = kept := by
      rw [List.filter_eq_self]
      intro c hc
      have hid := hnew c (hsublist.subset hc)
      rw [List.map_cons, List.mem_cons, not_or] at hid
      simpa using hid.1
    have hnext : appendActivity js kept a =
        retainThreadActivities (placeActivity js activities a) := by
      rw [appendActivity, hothers, ← placeActivity]
      rcases hkept with rfl | rfl
      · rfl
      · exact retain_placeActivity_retain hsorted (hasync a List.mem_cons_self)
    rw [List.foldl_cons, List.foldl_cons, hnext]
    by_cases hlast : added = []
    · rw [hlast]
      rfl
    · refine ih (inOrder_placeActivity _ _) hlast (fun c hc ↦ ?_) hids.2
        (fun b hb ↦ hasync b (List.mem_cons_of_mem _ hb)) _ (.inr rfl)
      rcases mem_placeActivity.mp hc with hc | rfl
      · have hid := hnew c hc
        rw [List.map_cons, List.mem_cons, not_or] at hid
        exact hid.2
      · exact hids.1

end Place

/-! ## Dismissals -/

/-- What settling a thread dismisses is closed by it: the dismissals have new ids, each one stands
after its question, and what ended a question is visible beside them. -/
structure DismissalsClose (thread : OrchestrationThread) (commandId : CommandId)
    (now : IsoDateTime) : Prop where
  fresh : ∀ activity ∈ thread.activities,
    activity.id ∉ (settleDismissals js commandId thread now).map (·.id)
  inPlace : ∀ request ∈ (openRequests js thread).entries,
    activityLe js request.2 (settleDismissal commandId request.1 request.2 now) = true
  visible : settleDismissals js commandId thread now ≠ [] →
    EndsStayVisible js ((settleDismissals js commandId thread now).foldl (placeActivity js)
      thread.activities)

section Dismissals

variable {js} {thread : OrchestrationThread} {commandId : CommandId} {now : IsoDateTime}
  {requestId : String} {q : OrchestrationThreadActivity}

private theorem isRequest_settleDismissal (requestId : String)
    (request : OrchestrationThreadActivity) :
    (settleDismissal commandId requestId request now).isRequest = false := rfl

/-- A dismissal ends the request it dismisses, and no other. -/
private theorem supersedes_settleDismissal_iff {r : String} {request : OrchestrationThreadActivity}
    (hid : q.requestId? = some requestId) :
    (settleDismissal commandId r request now).supersedes js q = true ↔ r = requestId := by
  rw [OrchestrationThreadActivity.supersedes, isClosing_settleDismissal, Bool.or_true,
    Bool.true_and, requestId?_settleDismissal, hid, beq_iff_eq, Option.some.injEq]

/-- **The requests that stay open** once the dismissals have taken their places: those whose
dismissal comes before them. -/
theorem mem_openOf_dismissed_iff (hsorted : InOrder js thread.activities) :
    (requestId, q) ∈ (openOf js ((settleDismissals js commandId thread now).foldl
        (placeActivity js) thread.activities)).entries ↔
      (requestId, q) ∈ (openRequests js thread).entries ∧
        activityLe js q (settleDismissal commandId requestId q now) = false := by
  constructor
  · intro h
    obtain ⟨before, x, after, hsplit, rfl, hopen⟩ := mem_openOf_iff.mp h
    have hnew : x ∉ settleDismissals js commandId thread now := by
      intro hx
      obtain ⟨request, -, rfl⟩ := List.mem_map.mp hx
      exact absurd hopen.asks (by simp [isRequest_settleDismissal])
    obtain ⟨before', after', hactivities, hafter, hdismissals⟩ :=
      exists_of_foldl_placeActivity_eq hsorted hnew hsplit
    have hmem : (requestId, x) ∈ (openRequests js thread).entries :=
      mem_openOf_iff.mpr ⟨before', x, after', hactivities, rfl, hopen.mono hafter⟩
    refine ⟨hmem, ?_⟩
    by_contra hle
    rw [Bool.not_eq_false] at hle
    have hends := hopen.unended _ (hdismissals _ (List.mem_map_of_mem hmem) hle)
    rw [(supersedes_settleDismissal_iff hopen.id).mpr rfl] at hends
    cases hends
  · rintro ⟨h, hlater⟩
    obtain ⟨before, x, after, hsplit, rfl, hopen⟩ := mem_openOf_iff.mp h
    rw [hsplit] at hsorted ⊢
    obtain ⟨before', after', hplace, hafter⟩ := exists_foldl_placeActivity_split hsorted
      (settleDismissals js commandId thread now)
    refine mem_openOf_iff.mpr ⟨before', x, after', hplace, rfl, hopen.asks, hopen.id, ?_⟩
    intro c hc
    rcases (hafter c).mp hc with hc | ⟨hc, hle⟩
    · exact hopen.unended c hc
    · obtain ⟨⟨r, request⟩, hrequest, rfl⟩ := List.mem_map.mp hc
      by_contra hends
      rw [Bool.not_eq_false, supersedes_settleDismissal_iff hopen.id] at hends
      subst hends
      obtain rfl := OrderedMap.eq_of_mem_entries hrequest h
      rw [hlater] at hle
      cases hle

/-- The cap brings no open request back that is not an async question. -/
theorem mem_openOf_of_retain {activities : List OrchestrationThreadActivity}
    (h : (requestId, q) ∈ (openOf js (retainThreadActivities activities)).entries)
    (hasync : q.isAsync = false) : (requestId, q) ∈ (openOf js activities).entries := by
  obtain ⟨before, after, rfl, hkept, hopen⟩ := exists_of_mem_openOf_retain h
  have hsetup : (q.kind == worktreeSetupActivityKind) = false := by
    rw [beq_eq_false_iff_ne]
    intro hkind
    have hasks := hopen.asks
    simp [OrchestrationThreadActivity.isRequest, hkind, worktreeSetupActivityKind] at hasks
  simp only [keptBefore, pendingBefore, hasync, hsetup, Bool.false_and, Bool.or_false,
    decide_eq_true_iff] at hkept
  rw [filterRest_eq_self_of_length hkept.le] at hopen
  exact mem_openOf_iff.mpr ⟨before, q, after, rfl, rfl, hopen⟩

/-- The dismissed activities of a thread, trimmed once. -/
private theorem foldl_settleDismissals_eq (hsorted : InOrder js thread.activities)
    (hfresh : ∀ activity ∈ thread.activities,
      activity.id ∉ (settleDismissals js commandId thread now).map (·.id))
    (hdismissals : settleDismissals js commandId thread now ≠ []) :
    (settleDismissals js commandId thread now).foldl (appendActivity js) thread.activities =
      retainThreadActivities ((settleDismissals js commandId thread now).foldl
        (placeActivity js) thread.activities) := by
  refine foldl_appendActivity_eq hsorted hdismissals hfresh nodup_ids_settleDismissals ?_
  simp only [settleDismissals, List.forall_mem_map]
  exact fun request _ ↦ rfl

/-- **Dismissals that close leave nothing open.** -/
theorem DismissalsClose.openOf_eq_nil (h : DismissalsClose js thread commandId now)
    (hsorted : InOrder js thread.activities) :
    (openOf js ((settleDismissals js commandId thread now).foldl (appendActivity js)
      thread.activities)).entries = [] := by
  by_cases hdismissals : settleDismissals js commandId thread now = []
  · rw [hdismissals]
    exact List.map_eq_nil_iff.mp hdismissals
  have hplaced : ∀ request : String × OrchestrationThreadActivity,
      request ∉ (openOf js ((settleDismissals js commandId thread now).foldl
        (placeActivity js) thread.activities)).entries := by
    intro request hrequest
    obtain ⟨hopen, hle⟩ := (mem_openOf_dismissed_iff hsorted).mp hrequest
    rw [h.inPlace _ hopen] at hle
    cases hle
  rw [foldl_settleDismissals_eq hsorted h.fresh hdismissals, List.eq_nil_iff_forall_not_mem]
  rintro ⟨requestId, q⟩ hmem
  by_cases hasync : q.isAsync = true
  · have hquestion : (requestId, q) ∈ openQuestions js (retainThreadActivities
        ((settleDismissals js commandId thread now).foldl (placeActivity js)
          thread.activities)) := List.mem_filter.mpr ⟨hmem, hasync⟩
    rw [sameOpenQuestions_retain_iff.mpr (h.visible hdismissals)] at hquestion
    exact hplaced _ (List.mem_filter.mp hquestion).1
  · exact hplaced _ (mem_openOf_of_retain hmem (by simpa using hasync))

/-- **Dismissals of async questions with new ids that leave nothing open close.** -/
theorem dismissalsClose_of_openOf_eq_nil (hsorted : InOrder js thread.activities)
    (hfresh : ∀ activity ∈ thread.activities,
      activity.id ∉ (settleDismissals js commandId thread now).map (·.id))
    (hasync : ∀ request ∈ (openRequests js thread).entries, request.2.isAsync = true)
    (h : (openOf js ((settleDismissals js commandId thread now).foldl (appendActivity js)
      thread.activities)).entries = []) : DismissalsClose js thread commandId now := by
  by_cases hdismissals : settleDismissals js commandId thread now = []
  · have hnone : (openRequests js thread).entries = [] := List.map_eq_nil_iff.mp hdismissals
    exact ⟨hfresh, by simp [hnone], fun hne ↦ absurd hdismissals hne⟩
  rw [foldl_settleDismissals_eq hsorted hfresh hdismissals] at h
  have hinPlace : ∀ request ∈ (openRequests js thread).entries,
      activityLe js request.2 (settleDismissal commandId request.1 request.2 now) = true := by
    intro request hrequest
    by_contra hle
    have hquestion := mem_openQuestions_retain (List.mem_filter.mpr
      ⟨(mem_openOf_dismissed_iff hsorted).mpr ⟨hrequest, by simpa using hle⟩,
        hasync request hrequest⟩)
    rw [openQuestions, h] at hquestion
    cases hquestion
  refine ⟨hfresh, hinPlace, fun _ ↦ sameOpenQuestions_retain_iff.mp fun request ↦ ?_⟩
  refine ⟨fun hquestion ↦ ?_, mem_openQuestions_retain⟩
  rw [openQuestions, h] at hquestion
  cases hquestion

end Dismissals

/-! ## The thread after a settlement -/

/-- A thread after it was settled, at the time `now`, with what the event says. -/
def settledThread (commandId : CommandId) (now settledAt updatedAt : IsoDateTime)
    (thread : OrchestrationThread) : OrchestrationThread :=
  { thread with
    settledOverride := some .settled
    settledAt := some settledAt
    unsettledAt := none
    activeOrderKey := none
    activities := (settleDismissals js commandId thread now).foldl (appendActivity js)
      thread.activities
    pinnedAt := none
    pinOrderKey := if thread.pinnedAt.isSome then none else thread.pinOrderKey
    snoozedUntil := none
    snoozedAt := if thread.snoozedUntil.isSome then none else thread.snoozedAt
    updatedAt := if settleDismissals js commandId thread now = [] ∧ thread.pinnedAt = none ∧
      thread.snoozedUntil = none then updatedAt else now }

section Settle

variable {js} {readModel : OrchestrationReadModel} {context : DecisionContext}
  {commandId : CommandId} {threadId : ThreadId} {type : String} {auto : Option IsoDateTime}
  {events : List PlannedOrchestrationEvent} {thread : OrchestrationThread}
  {projects : List OrchestrationProject}

/-- The time at which a settled thread was settled. -/
def alreadySettledAt (thread : OrchestrationThread) : Option IsoDateTime :=
  thread.settledAt.filter fun _ ↦ thread.settledOverride = some .settled

/-- **What settling checks and plans.** -/
theorem decideSettle_eq_ok :
    decideSettle js readModel context commandId threadId type auto = .ok events ↔
      ∃ thread, findThread readModel.threads threadId = some thread ∧ thread.archivedAt = none ∧
        (auto = none ∨ thread.settledOverride = none) ∧
        thread.session.all (fun session ↦ !session.status.alive) = true ∧
        (∀ request ∈ (openRequests js thread).entries,
          auto = none ∧ request.2.isAsync = true) ∧
        hasQueuedTurnStartForThread js thread context.now = false ∧
        events = threadEvent commandId threadId context.now (.settled
            ((alreadySettledAt thread).getD (auto.getD context.now))
            (if (alreadySettledAt thread).isSome then thread.updatedAt else context.now)) ::
          ((settleDismissals js commandId thread context.now).map fun a ↦
            threadEvent commandId threadId context.now (.activityAppended a)) ++
          (if thread.pinnedAt.isSome then
            [threadEvent commandId threadId context.now (.unpinned context.now)] else []) ++
          (if thread.snoozedUntil.isSome then
            [threadEvent commandId threadId context.now (.unsnoozed .user context.now)]
            else []) := by
  simp only [decideSettle, requireThreadNotArchived_bind_eq_ok, ensure_bind_eq_ok, pure_eq_ok,
    alreadySettledAt, settleDismissals, List.map_map]
  refine exists_congr fun thread ↦ and_congr_right fun _ ↦ and_congr_right fun _ ↦
    and_congr_right fun _ ↦ and_congr_right fun _ ↦ and_congr ?_ (and_congr_right fun _ ↦ eq_comm)
  simp only [List.all_eq_true, OrderedMap.values, List.forall_mem_map, Bool.and_eq_true,
    Option.isNone_iff_eq_none, OrchestrationThreadActivity.isAsync, and_assoc]

/-- **The thread after an accepted settlement.** -/
theorem threadFold_decideSettle
    (h : decideSettle js readModel context commandId threadId type auto = .ok events)
    (hfind : findThread readModel.threads threadId = some thread) :
    threadFold js projects threadId events (some thread) = some (settledThread js commandId
      context.now ((alreadySettledAt thread).getD (auto.getD context.now))
      (if (alreadySettledAt thread).isSome then thread.updatedAt else context.now) thread) := by
  obtain ⟨_, hthread, -, -, -, -, -, rfl⟩ := decideSettle_eq_ok.mp h
  obtain rfl := Option.some_inj.mp (hfind.symm.trans hthread)
  rw [threadFold_append, threadFold_append, threadFold_threadEvent_cons]
  refine (congrArg _ (congrArg _ (threadFold_appended js commandId context.now projects threadId
    (settleDismissals js commandId thread context.now) _))).trans ?_
  cases hpinned : thread.pinnedAt <;> cases hsnoozed : thread.snoozedUntil <;>
    simp [settledThread, threadPatch, eventThread, hpinned, hsnoozed]

end Settle

/-! ## Settling in runs -/

/-- The activities of a thread are in order in every run. -/
theorem inOrder_of_reaches {js : JsRuntime} {ok : CommandCondition} {nowIso : IsoDateTime}
    {model : OrchestrationReadModel} {log : List PlannedOrchestrationEvent}
    (h : (commandModel js).Reaches ok (createEmptyReadModel nowIso) model log) :
    ∀ t ∈ model.threads, InOrder js t.activities := by
  refine thread_of_reaches (fun _ _ ht ↦ ht) ?_ h
  intro model dispatch commandId threadId command events hthread _ _ hdecided
  exact inOrder_threadFold (planned_of_decide hdecided) hthread

/-- The commands that settle a thread. -/
def SettleCommand (threadId : ThreadId) (body : OrchestrationCommandBody) : Prop :=
  body = .thread threadId .settle ∨
    ∃ sequence settledAt, body = .thread threadId (.autoSettle sequence settledAt)

/-- The thread is settled, and neither pinned nor snoozed. -/
structure IsSettled (thread : OrchestrationThread) : Prop where
  settledOverride : thread.settledOverride = some .settled
  settledAt : thread.settledAt.isSome = true
  pinnedAt : thread.pinnedAt = none
  snoozedUntil : thread.snoozedUntil = none

/-- Nothing is open on a thread of a read model, and settling it again, with the clock unmoved or
with no turn start queued, is accepted and dismisses nothing. -/
structure NothingToDismiss (model : OrchestrationReadModel) (threadId : ThreadId)
    (now : IsoDateTime) (thread : OrchestrationThread) : Prop where
  openRequests : (openRequests js thread).entries = []
  again : ∀ dispatch : Dispatch, dispatch.command.body = .thread threadId .settle →
    dispatch.clock 0 = now ∨ hasQueuedTurnStartForThread js thread (dispatch.clock 0) = false →
    ∃ events, (commandModel js).decide ((commandModel js).prepare model dispatch) dispatch =
      .ok events ∧ ∀ event ∈ events, ∀ activity,
        event.payload ≠ .thread threadId (.activityAppended activity)

section Runs

variable {js} {nowIso : IsoDateTime} {model : OrchestrationReadModel}
  {log events : List PlannedOrchestrationEvent} {dispatch : Dispatch} {threadId : ThreadId}

/-- How a command of a thread is decided. -/
theorem decide_thread {command : ThreadCommand}
    (h : dispatch.command.body = .thread threadId command) :
    (commandModel js).decide model dispatch = decideThreadCommand js
      (decideCommandSequence js dispatch.command.commandId dispatch.clock model) model
      { now := dispatch.clock 0, userInputActivity := dispatch.userInputActivity }
      dispatch.command.commandId threadId command := by
  simp only [commandModel, decideOrchestrationCommand, h, decideWith]

/-- A settlement changes nothing else that settling again reads. -/
private theorem nothingToDismiss_settledThread {thread : OrchestrationThread}
    {commandId : CommandId} {now settledAt updatedAt : IsoDateTime}
    {after : OrchestrationReadModel}
    (hafter : findThread after.threads threadId =
      some (settledThread js commandId now settledAt updatedAt thread))
    (harchived : thread.archivedAt = none)
    (hsession : thread.session.all (fun session ↦ !session.status.alive) = true)
    (hqueued : hasQueuedTurnStartForThread js thread now = false)
    (hopen : (openRequests js (settledThread js commandId now settledAt updatedAt
      thread)).entries = []) :
    NothingToDismiss js after threadId now
      (settledThread js commandId now settledAt updatedAt thread) where
  openRequests := hopen
  again := by
    intro again hagain hclock
    have hprepare : (findThread ((commandModel js).prepare after again).threads threadId) =
        some (settledThread js commandId now settledAt updatedAt thread) := by
      rw [← hafter]
      exact congrArg (findThread · threadId) (threads_resolveRepositoryIdentity after again)
    have hqueued' : hasQueuedTurnStartForThread js
        (settledThread js commandId now settledAt updatedAt thread) (again.clock 0) = false := by
      rcases hclock with hclock | hclock
      · rw [hclock]
        exact hqueued
      · exact hclock
    refine ⟨_, (decide_thread hagain).trans (decideSettle_eq_ok.mpr ⟨_, hprepare, harchived,
      .inl rfl, hsession, by simp [hopen], hqueued', rfl⟩), ?_⟩
    have hnone : settleDismissals js again.command.commandId
        (settledThread js commandId now settledAt updatedAt thread) (again.clock 0) = [] := by
      rw [settleDismissals, hopen, List.map_nil]
    dsimp only
    rw [hnone]
    simp [settledThread, threadEvent]

/-- **The read model after an accepted settlement.** -/
theorem findThread_settle (hsettle : SettleCommand threadId dispatch.command.body)
    (hdecided : (commandModel js).decide ((commandModel js).prepare model dispatch) dispatch =
      .ok events) :
    ∃ thread auto, findThread model.threads threadId = some thread ∧ thread.archivedAt = none ∧
      thread.session.all (fun session ↦ !session.status.alive) = true ∧
      (∀ request ∈ (openRequests js thread).entries, request.2.isAsync = true) ∧
      hasQueuedTurnStartForThread js thread (dispatch.clock 0) = false ∧
      findThread ((commandModel js).fold ((commandModel js).prepare model dispatch)
        events).threads threadId = some (settledThread js dispatch.command.commandId
          (dispatch.clock 0)
          ((alreadySettledAt thread).getD (Option.getD auto (dispatch.clock 0)))
          (if (alreadySettledAt thread).isSome then thread.updatedAt else dispatch.clock 0)
          thread) := by
  have hthreads : ((commandModel js).prepare model dispatch).threads = model.threads :=
    threads_resolveRepositoryIdentity model dispatch
  have hsettled : ∃ type auto, decideSettle js ((commandModel js).prepare model dispatch)
      ⟨dispatch.clock 0, dispatch.userInputActivity⟩ dispatch.command.commandId threadId type
      auto = .ok events := by
    obtain hbody | ⟨sequence, settledAt, hbody⟩ := hsettle
    · exact ⟨_, _, (decide_thread hbody).symm.trans hdecided⟩
    · exact ⟨_, _, (decide_thread hbody).symm.trans hdecided⟩
  obtain ⟨type, auto, hsettled⟩ := hsettled
  obtain ⟨thread, hthread, harchived, -, hsession, hasync, hqueued, -⟩ :=
    decideSettle_eq_ok.mp hsettled
  have hevents : EventsOf threadId events := fun event he ↦
    (plans_settle events hsettled event he).payload.imp fun _ hp ↦ hp.1
  refine ⟨thread, auto, hthreads ▸ hthread, harchived, hsession,
    fun request hrequest ↦ (hasync request hrequest).2, hqueued, ?_⟩
  rw [hevents.findThread_fold, hthread]
  exact threadFold_decideSettle hsettled hthread

/-- **An accepted settlement settles.** Whatever it dismisses, its thread is settled, and neither
pinned nor snoozed; nothing is open on it and settling it again is accepted and dismisses nothing
if its dismissals close, and, where their ids are new, only if they do. -/
theorem settled_of_settle
    (h : (commandModel js).Reaches anyCommand (createEmptyReadModel nowIso) model log)
    (hsettle : SettleCommand threadId dispatch.command.body)
    (hdecided : (commandModel js).decide ((commandModel js).prepare model dispatch) dispatch =
      .ok events) :
    ∃ thread settled, findThread model.threads threadId = some thread ∧
      findThread ((commandModel js).fold ((commandModel js).prepare model dispatch)
        events).threads threadId = some settled ∧
      IsSettled settled ∧
      (DismissalsClose js thread dispatch.command.commandId (dispatch.clock 0) →
        NothingToDismiss js ((commandModel js).fold ((commandModel js).prepare model dispatch)
          events) threadId (dispatch.clock 0) settled) ∧
      ((∀ activity ∈ thread.activities, activity.id ∉ (settleDismissals js
          dispatch.command.commandId thread (dispatch.clock 0)).map (·.id)) →
        NothingToDismiss js ((commandModel js).fold ((commandModel js).prepare model dispatch)
          events) threadId (dispatch.clock 0) settled →
        DismissalsClose js thread dispatch.command.commandId (dispatch.clock 0)) := by
  obtain ⟨thread, auto, hthread, harchived, hsession, hasync, hqueued, hafter⟩ :=
    findThread_settle hsettle hdecided
  have hsorted : InOrder js thread.activities :=
    inOrder_of_reaches h thread (findThread_eq_some hthread).1
  refine ⟨thread, _, hthread, hafter, ⟨rfl, rfl, rfl, rfl⟩, fun hclose ↦ ?_, fun hfresh hopen ↦ ?_⟩
  · exact nothingToDismiss_settledThread hafter harchived hsession hqueued
      (hclose.openOf_eq_nil hsorted)
  · exact dismissalsClose_of_openOf_eq_nil hsorted hfresh hasync hopen.openRequests

end Runs

/-! ## A question that cannot be dismissed -/

/-- An async question, asked with or without a sequence. -/
def askQuestion (sequence : Option ℕ) : List Dispatch := createProjectAndThread ++
  [dispatchAt "2026-03-01T12:00:02.000Z" "c3" (.thread "t" (.activityAppend {
    id := "a1", tone := .info, kind := "user-input.requested", summary := "User input requested"
    payload := .obj [("requestId", .str "r"), ("responseMode", .str "message")], turnId := none
    sequence, createdAt := "2026-03-01T12:00:02.000Z" } "2026-03-01T12:00:02.000Z"))]

/-- The read model with the question. -/
def questionModel (sequence : Option ℕ) : OrchestrationReadModel :=
  ((commandModel plainRuntime).run anyCommand (createEmptyReadModel "2026-03-01T12:00:00.000Z")
    (askQuestion sequence)).1

/-- The settlement of its thread. -/
def settleQuestion : Dispatch := dispatchAt "2026-03-01T12:00:03.000Z" "c4" (.thread "t" .settle)

theorem settled_of_settle_question :
    ∃ events thread settled, findThread (questionModel none).threads "t" = some thread ∧
      findThread ((commandModel plainRuntime).fold ((commandModel plainRuntime).prepare
        (questionModel none) settleQuestion) events).threads "t" = some settled ∧
      IsSettled settled := by
  obtain ⟨events, hevents, -⟩ := EventSourced.exists_eq_ok_of_any (p := fun _ ↦ true)
    (show ((commandModel plainRuntime).decide ((commandModel plainRuntime).prepare
      (questionModel none) settleQuestion) settleQuestion).toOption.any (fun _ ↦ true) = true by
      decide +kernel)
  obtain ⟨thread, settled, hthread, hafter, hsettled, -⟩ :=
    settled_of_settle (EventSourced.reaches_run _ _ _ _) (.inl rfl) hevents
  exact ⟨events, thread, settled, hthread, hafter, hsettled⟩

/-- A question with a sequence stands after its dismissal, which has none. -/
theorem not_settled_of_settle :
    ¬ ∀ model log, (commandModel plainRuntime).Reaches anyCommand
        (createEmptyReadModel "2026-03-01T12:00:00.000Z") model log →
      ∀ (dispatch : Dispatch) (threadId : ThreadId) events,
        SettleCommand threadId dispatch.command.body →
        (commandModel plainRuntime).decide ((commandModel plainRuntime).prepare model dispatch)
          dispatch = .ok events →
        ∃ settled, findThread ((commandModel plainRuntime).fold
            ((commandModel plainRuntime).prepare model dispatch) events).threads threadId =
              some settled ∧ IsSettled settled ∧ NothingToDismiss plainRuntime
            ((commandModel plainRuntime).fold ((commandModel plainRuntime).prepare model dispatch)
              events) threadId (dispatch.clock 0) settled := by
  intro h
  obtain ⟨after, hstep, hopen⟩ := EventSourced.exists_eq_ok_of_any
    (show ((commandModel plainRuntime).step (questionModel (some 1)) settleQuestion).toOption.any
      (fun after ↦ (findThread after.threads "t").all fun t ↦
        (openRequests plainRuntime t).entries.map Prod.fst == ["r"]) = true by decide +kernel)
  obtain ⟨events, hevents, rfl⟩ := EventSourced.step_eq_ok.mp hstep
  obtain ⟨settled, hafter, -, hdismissed⟩ :=
    h (questionModel (some 1)) _ (EventSourced.reaches_run _ _ _ _) settleQuestion "t" events
      (.inl rfl) hevents
  rw [hafter, Option.all_some, hdismissed.openRequests] at hopen
  cases hopen

end Awen.Orchestration
