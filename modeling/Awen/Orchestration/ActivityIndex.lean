import Mathlib.Logic.Function.Basic
import Awen.Library.Runs
import Awen.Orchestration.ThreadReducer
import Awen.Shared.PlainRuntime

/-!
# The index of activity ids

The reducer of a client keeps the ids of the lists of activities it has made, so that an activity
that comes last need not be looked for, nor the list be sorted again. The index knows an array by
its identity, and its set of ids moves on to the next array: an array that has been appended to is
not indexed any more. Since any state of a thread may be reduced again, what matters is that no two
arrays ever share a set.

A list is sorted once an activity has been appended to it. The list that a revert leaves is not: it
is a copy of the one before, which may be a snapshot in the order of the database. It is not indexed
either, so that the next activity sorts it.
-/

namespace Awen.Orchestration

/-- The identity of an array. -/
abbrev ArrayRef := ℕ

/-- The identity of a set of ids. -/
abbrev SetRef := ℕ

/-- **A thread, and the array its activities are in.** Arrays are never written to. -/
structure HeldThread where
  thread : OrchestrationThread
  activities : ArrayRef

/-- The arrays and sets there are, and the index from the ones to the others. -/
structure ActivityMemory where
  arrays : ℕ := 0
  sets : ℕ := 0
  ids : SetRef → List EventId := fun _ ↦ []
  activityIdIndex : ArrayRef → Option SetRef := fun _ ↦ none

inductive HeldThreadResult
  | updated (held : HeldThread)
  | deleted
  | unchanged

/-- The result without the identity of the array. -/
def HeldThreadResult.forget : HeldThreadResult → ThreadDetailReducerResult
  | .updated held => .updated held.thread
  | .deleted => .deleted
  | .unchanged => .unchanged

/-- Sorted by the order of the reducer. -/
def ActivitiesSorted (activities : List OrchestrationThreadActivity) : Prop :=
  activities.Pairwise fun a b ↦ (activityOrder a b).isLE = true

instance (activities : List OrchestrationThreadActivity) :
    Decidable (ActivitiesSorted activities) :=
  inferInstanceAs (Decidable (List.Pairwise _ _))

namespace ActivityMemory

/-! ## The reducer -/

/-- A thread whose activities are in a new array. -/
def inNewArray (m : ActivityMemory) (thread : OrchestrationThread) : HeldThread × ActivityMemory :=
  ({ thread, activities := m.arrays }, { m with arrays := m.arrays + 1 })

/-- The ids to move on to the next array: an unseen activity that supersedes nothing comes at the
tail of an array that is indexed. -/
def idsToMove (m : ActivityMemory) (held : HeldThread) (activity : OrchestrationThreadActivity) :
    Option SetRef :=
  (m.activityIdIndex held.activities).filter fun ids ↦
    !isResolvableContextWindowActivity activity
      && held.thread.activities.getLast?.all (fun last ↦ (activityOrder last activity).isLE)
      && decide (activity.id ∉ m.ids ids)

/-- The activities of a thread with one more, and the array they are in. -/
def appendActivity (m : ActivityMemory) (held : HeldThread)
    (activity : OrchestrationThreadActivity) : List OrchestrationThreadActivity × ActivityMemory :=
  match m.idsToMove held activity with
  | some ids =>
    (held.thread.activities ++ [activity],
      { m with
        arrays := m.arrays + 1
        ids := Function.update m.ids ids (m.ids ids ++ [activity.id])
        activityIdIndex := Function.update (Function.update m.activityIdIndex held.activities none)
          m.arrays (some ids) })
  | none =>
    let activities := appendDetailActivity held.thread.activities activity
    (activities,
      { m with
        arrays := m.arrays + 1
        sets := m.sets + 1
        ids := Function.update m.ids m.sets (activities.map (·.id))
        activityIdIndex := Function.update m.activityIdIndex m.arrays (some m.sets) })

variable (js : JsRuntime)

/-- **One event folded into a thread**, with the index. The other events leave the index alone; the
activities of a new thread and those that a revert keeps are in a new array. -/
def applyThreadDetailEvent (m : ActivityMemory) (held : HeldThread) (event : OrchestrationEvent) :
    HeldThreadResult × ActivityMemory :=
  match event.payload with
  | .thread _ (.activityAppended activity) =>
    let (activities, m') := m.appendActivity held activity
    (.updated {
      thread := { held.thread with activities, updatedAt := event.occurredAt }
      activities := m.arrays }, m')
  | .thread _ (.created _) | .thread _ (.reverted _) =>
    match Orchestration.applyThreadDetailEvent js held.thread event with
    | .updated thread =>
      let (held', m') := m.inNewArray thread
      (.updated held', m')
    | .deleted => (.deleted, m)
    | .unchanged => (.unchanged, m)
  | _ =>
    match Orchestration.applyThreadDetailEvent js held.thread event with
    | .updated thread => (.updated { held with thread }, m)
    | .deleted => (.deleted, m)
    | .unchanged => (.unchanged, m)

end ActivityMemory

/-! ## Runs -/

/-- The threads a client has held, the last one first, and the memory of its reducer. -/
structure ReducedThreads where
  threads : List HeldThread := []
  memory : ActivityMemory := {}

/-- **What a client does with threads.** -/
inductive ReducerCall
  /-- A thread from elsewhere: a snapshot, the cache, a page of older turns. -/
  | load (thread : OrchestrationThread)
  /-- An event is folded into any thread held so far. -/
  | reduce (index : ℕ) (event : OrchestrationEvent)

namespace ReducedThreads

variable (js : JsRuntime)

def step (s : ReducedThreads) : ReducerCall → ReducedThreads
  | .load thread =>
    let (held, memory) := s.memory.inNewArray thread
    { threads := held :: s.threads, memory }
  | .reduce index event =>
    match s.threads[index]? with
    | none => s
    | some held =>
      match s.memory.applyThreadDetailEvent js held event with
      | (.updated held', memory) => { threads := held' :: s.threads, memory }
      | (_, memory) => { s with memory }

/-- The threads after a tree of calls. -/
def after (calls : List ReducerCall) : ReducedThreads :=
  calls.foldl (step js) {}

end ReducedThreads

/-! ## What the index says -/

namespace ActivityMemory

/-- What is indexed is there, and no two arrays share a set. -/
structure Owned (m : ActivityMemory) : Prop where
  made : ∀ ref ids, m.activityIdIndex ref = some ids → ref < m.arrays ∧ ids < m.sets
  once : ∀ ref ref' ids, m.activityIdIndex ref = some ids → m.activityIdIndex ref' = some ids →
    ref = ref'

/-- Where the array of a thread is indexed, its activities are sorted and their ids are those of the
set. -/
structure Describes (m : ActivityMemory) (held : HeldThread) : Prop where
  made : held.activities < m.arrays
  sorted : ∀ ids, m.activityIdIndex held.activities = some ids →
    ActivitiesSorted held.thread.activities
  ids : ∀ ids, m.activityIdIndex held.activities = some ids →
    ∀ id, id ∈ m.ids ids ↔ ∃ activity ∈ held.thread.activities, activity.id = id

theorem owned_init : ({} : ActivityMemory).Owned where
  made _ _ h := nomatch h
  once _ _ _ h := nomatch h

variable {m : ActivityMemory} {held other : HeldThread} {activity : OrchestrationThreadActivity}

/-- An array that has just been made is not indexed. -/
theorem Owned.index_arrays (h : m.Owned) : m.activityIdIndex m.arrays = none := by
  cases hindex : m.activityIdIndex m.arrays with
  | none => rfl
  | some ids => exact absurd (h.made _ _ hindex).1 (lt_irrefl _)

theorem Owned.inNewArray (h : m.Owned) (thread : OrchestrationThread) :
    (m.inNewArray thread).2.Owned where
  made ref ids hindex := ⟨(h.made ref ids hindex).1.trans (Nat.lt_succ_self _),
    (h.made ref ids hindex).2⟩
  once := h.once

theorem Describes.inNewArray (h : m.Describes held) (thread : OrchestrationThread) :
    (m.inNewArray thread).2.Describes held where
  made := h.made.trans (Nat.lt_succ_self _)
  sorted := h.sorted
  ids := h.ids

theorem Owned.describes_inNewArray (h : m.Owned) (thread : OrchestrationThread) :
    (m.inNewArray thread).2.Describes (m.inNewArray thread).1 where
  made := Nat.lt_succ_self _
  sorted _ hindex := absurd (h.index_arrays.symm.trans hindex) nofun
  ids _ hindex := absurd (h.index_arrays.symm.trans hindex) nofun

/-- A thread that takes over the array and the activities of another. -/
theorem Describes.takeOver (h : m.Describes held) {thread : OrchestrationThread}
    (hactivities : thread.activities = held.thread.activities) :
    m.Describes { held with thread } where
  made := h.made
  sorted := by
    rw [hactivities]
    exact h.sorted
  ids := by
    rw [hactivities]
    exact h.ids

/-! ## An append -/

theorem idsToMove_eq_some {ids : SetRef} (hmove : m.idsToMove held activity = some ids) :
    m.activityIdIndex held.activities = some ids ∧
      isResolvableContextWindowActivity activity = false ∧
      (∀ last ∈ held.thread.activities.getLast?, (activityOrder last activity).isLE = true) ∧
      activity.id ∉ m.ids ids := by
  obtain ⟨hindex, htest⟩ := Option.filter_eq_some_iff.mp hmove
  simp only [Bool.and_eq_true, Bool.not_eq_true', decide_eq_true_eq] at htest
  refine ⟨hindex, htest.1.1, fun last hlast ↦ ?_, htest.2⟩
  have hall := htest.1.2
  rw [Option.mem_def.mp hlast] at hall
  exact hall

/-- **The shortcut gives the list that the filter and the sort give.** -/
theorem Describes.appendActivity_fst (h : m.Describes held)
    (activity : OrchestrationThreadActivity) :
    (m.appendActivity held activity).1 =
      appendDetailActivity held.thread.activities activity := by
  unfold appendActivity
  split
  next ids hmove =>
    obtain ⟨hindex, hwindow, hlast, hnew⟩ := idsToMove_eq_some hmove
    refine (appendDetailActivity_of_sorted (h.sorted ids hindex) hwindow hlast ?_).symm
    intro entry hentry hid
    exact hnew ((h.ids ids hindex _).mpr ⟨entry, hentry, hid⟩)
  next => rfl

theorem sorted_appendDetailActivity (activities : List OrchestrationThreadActivity)
    (activity : OrchestrationThreadActivity) :
    ActivitiesSorted (appendDetailActivity activities activity) :=
  (consistentLe_isLE activityOrder).pairwise_stableSort _

/-- The memory after an append. -/
theorem appendActivity_cases (m : ActivityMemory) (held : HeldThread)
    (activity : OrchestrationThreadActivity) :
    (∃ ids, m.activityIdIndex held.activities = some ids ∧
      (m.appendActivity held activity).1 = held.thread.activities ++ [activity] ∧
      (m.appendActivity held activity).2 =
        { m with
          arrays := m.arrays + 1
          ids := Function.update m.ids ids (m.ids ids ++ [activity.id])
          activityIdIndex := Function.update
            (Function.update m.activityIdIndex held.activities none) m.arrays (some ids) }) ∨
    (m.appendActivity held activity).2 =
      { m with
        arrays := m.arrays + 1
        sets := m.sets + 1
        ids := Function.update m.ids m.sets
          ((appendDetailActivity held.thread.activities activity).map (·.id))
        activityIdIndex := Function.update m.activityIdIndex m.arrays (some m.sets) } := by
  unfold appendActivity
  split
  next ids hmove => exact .inl ⟨ids, (idsToMove_eq_some hmove).1, rfl, rfl⟩
  next => exact .inr rfl

private theorem update_some_eq_some {f : ArrayRef → Option SetRef} {a x : ArrayRef} {b y : SetRef} :
    Function.update f a (some b) x = some y ↔ (x = a ∧ b = y) ∨ (x ≠ a ∧ f x = some y) := by
  by_cases h : x = a <;> simp [h]

private theorem update_none_eq_some {f : ArrayRef → Option SetRef} {a x : ArrayRef} {y : SetRef} :
    Function.update f a none x = some y ↔ x ≠ a ∧ f x = some y := by
  by_cases h : x = a <;> simp [h]

/-- The index after an append: a set that the new array has, no other array has. -/
theorem Owned.index_appendActivity (h : m.Owned) (held : HeldThread)
    (activity : OrchestrationThreadActivity) :
    (m.appendActivity held activity).2.arrays = m.arrays + 1 ∧
      m.sets ≤ (m.appendActivity held activity).2.sets ∧
      ∃ ids < (m.appendActivity held activity).2.sets,
        ∀ ref ids', (m.appendActivity held activity).2.activityIdIndex ref = some ids' →
          (ref = m.arrays ∧ ids' = ids) ∨
            (ref ≠ m.arrays ∧ m.activityIdIndex ref = some ids' ∧ ids' ≠ ids) := by
  rcases appendActivity_cases m held activity with ⟨ids, hindex, -, hm⟩ | hm
  · rw [hm]
    refine ⟨rfl, le_rfl, ids, (h.made _ _ hindex).2, fun ref ids' href ↦ ?_⟩
    rcases update_some_eq_some.mp href with ⟨hnew, heq⟩ | ⟨hne, href⟩
    · exact .inl ⟨hnew, heq.symm⟩
    · obtain ⟨hheld, href⟩ := update_none_eq_some.mp href
      exact .inr ⟨hne, href, fun heq ↦ hheld (h.once _ _ _ href (heq ▸ hindex))⟩
  · rw [hm]
    refine ⟨rfl, Nat.le_succ _, m.sets, Nat.lt_succ_self _, fun ref ids' href ↦ ?_⟩
    rcases update_some_eq_some.mp href with ⟨hnew, heq⟩ | ⟨hne, href⟩
    · exact .inl ⟨hnew, heq.symm⟩
    · exact .inr ⟨hne, href, (h.made _ _ href).2.ne⟩

theorem Owned.appendActivity (h : m.Owned) (held : HeldThread)
    (activity : OrchestrationThreadActivity) : (m.appendActivity held activity).2.Owned := by
  obtain ⟨harrays, hsets, ids, hids, hindex⟩ := h.index_appendActivity held activity
  constructor
  · intro ref ids' href
    rw [harrays]
    rcases hindex ref ids' href with ⟨rfl, rfl⟩ | ⟨-, hold, -⟩
    · exact ⟨Nat.lt_succ_self _, hids⟩
    · exact ⟨(h.made _ _ hold).1.trans (Nat.lt_succ_self _), (h.made _ _ hold).2.trans_le hsets⟩
  · intro ref ref' ids' href href'
    rcases hindex ref ids' href with ⟨rfl, rfl⟩ | ⟨-, hold, hne⟩ <;>
      rcases hindex ref' _ href' with ⟨rfl, heq⟩ | ⟨-, hold', hne'⟩
    · rfl
    · exact absurd rfl hne'
    · exact absurd heq hne
    · exact h.once _ _ _ hold hold'

/-- The threads that are held stay described: what has lost its set is not indexed any more. -/
theorem Describes.appendActivity (h : m.Describes other) (hm : m.Owned) (held : HeldThread)
    (activity : OrchestrationThreadActivity) :
    (m.appendActivity held activity).2.Describes other := by
  have hne : other.activities ≠ m.arrays := h.made.ne
  have hindexed : ∀ ids', (m.appendActivity held activity).2.activityIdIndex other.activities =
      some ids' → m.activityIdIndex other.activities = some ids' ∧
        (m.appendActivity held activity).2.ids ids' = m.ids ids' := by
    intro ids' hother
    rcases appendActivity_cases m held activity with ⟨ids, hindex, -, hmem⟩ | hmem <;>
      rw [hmem] at hother ⊢
    · rcases update_some_eq_some.mp hother with ⟨hnew, -⟩ | ⟨-, hother⟩
      · exact absurd hnew hne
      · obtain ⟨hheld, hother⟩ := update_none_eq_some.mp hother
        refine ⟨hother, Function.update_of_ne (fun heq ↦ hheld ?_) _ _⟩
        exact hm.once _ _ _ hother (heq ▸ hindex)
    · rcases update_some_eq_some.mp hother with ⟨hnew, -⟩ | ⟨-, hother⟩
      · exact absurd hnew hne
      · exact ⟨hother, Function.update_of_ne (hm.made _ _ hother).2.ne _ _⟩
  constructor
  · rw [(hm.index_appendActivity held activity).1]
    exact h.made.trans (Nat.lt_succ_self _)
  · intro ids' hother
    exact h.sorted ids' (hindexed ids' hother).1
  · intro ids' hother
    rw [(hindexed ids' hother).2]
    exact h.ids ids' (hindexed ids' hother).1

/-- **The new thread is described**, whichever way its list came about. -/
theorem Describes.appended (h : m.Describes held) (activity : OrchestrationThreadActivity)
    {thread : OrchestrationThread}
    (hthread : thread.activities = appendDetailActivity held.thread.activities activity) :
    (m.appendActivity held activity).2.Describes { thread, activities := m.arrays } := by
  constructor
  · rcases appendActivity_cases m held activity with ⟨ids, -, -, hmem⟩ | hmem <;>
      rw [hmem] <;> exact Nat.lt_succ_self _
  · intro _ _
    rw [hthread]
    exact sorted_appendDetailActivity _ _
  · intro ids' hindex' id
    rcases appendActivity_cases m held activity with ⟨ids, hindex, hlist, hmem⟩ | hmem <;>
      rw [hmem] at hindex' ⊢ <;>
      obtain ⟨-, rfl⟩ | ⟨hne, -⟩ := update_some_eq_some.mp hindex'
    · rw [hthread, ← h.appendActivity_fst, hlist]
      simp [h.ids ids hindex, or_and_right, exists_or, eq_comm]
    · exact absurd rfl hne
    · rw [hthread]
      simp
    · exact absurd rfl hne

/-! ## A call -/

variable (js : JsRuntime)

/-- Whether an event makes a new array of activities. -/
private def writesActivities : OrchestrationEventPayload → Bool
  | .thread _ (.created _) | .thread _ (.reverted _) | .thread _ (.activityAppended _) => true
  | _ => false

/-- The other events leave the activities alone. -/
private theorem activities_of_updated {thread thread' : OrchestrationThread}
    {event : OrchestrationEvent}
    (h : Orchestration.applyThreadDetailEvent js thread event = .updated thread')
    (hwrites : writesActivities event.payload = false) :
    thread'.activities = thread.activities := by
  unfold Orchestration.applyThreadDetailEvent at h
  split at h
  next => cases h
  next threadId payload hpayload =>
    rw [hpayload] at hwrites
    cases payload <;> simp only [applyThreadDetailPayload] at h <;> (repeat' split at h) <;>
      first | (cases hwrites; done) | (cases h; rfl) | cases h

/-- What one call makes of a thread: the list with one more activity; a list in a new array, which
is empty or what a revert leaves; the list as it is; or no thread. -/
theorem applyThreadDetailEvent_cases (m : ActivityMemory) (held : HeldThread)
    (event : OrchestrationEvent) :
    (∃ threadId activity, event.payload = .thread threadId (.activityAppended activity) ∧
      m.applyThreadDetailEvent js held event =
        (.updated {
          thread := { held.thread with
            activities := (m.appendActivity held activity).1
            updatedAt := event.occurredAt }
          activities := m.arrays }, (m.appendActivity held activity).2)) ∨
    (∃ thread, Orchestration.applyThreadDetailEvent js held.thread event = .updated thread ∧
      thread.activities.Sublist held.thread.activities ∧
      m.applyThreadDetailEvent js held event =
        (.updated (m.inNewArray thread).1, (m.inNewArray thread).2)) ∨
    (∃ thread, Orchestration.applyThreadDetailEvent js held.thread event = .updated thread ∧
      thread.activities = held.thread.activities ∧
      m.applyThreadDetailEvent js held event = (.updated { held with thread }, m)) ∨
    (m.applyThreadDetailEvent js held event = (.deleted, m) ∧
      Orchestration.applyThreadDetailEvent js held.thread event = .deleted) ∨
    (m.applyThreadDetailEvent js held event = (.unchanged, m) ∧
      Orchestration.applyThreadDetailEvent js held.thread event = .unchanged) := by
  obtain ⟨⟨_, _, occurredAt, _, _, payload⟩, _⟩ := event
  cases payload with
  | project => exact .inr (.inr (.inr (.inr ⟨rfl, rfl⟩)))
  | thread threadId payload =>
    cases payload with
    | activityAppended activity => exact .inl ⟨threadId, activity, rfl, rfl⟩
    | created payload => exact .inr (.inl ⟨_, rfl, List.nil_sublist _, rfl⟩)
    | reverted turnCount => exact .inr (.inl ⟨_, rfl, List.filter_sublist, rfl⟩)
    | _ =>
      refine .inr (.inr ?_)
      simp only [ActivityMemory.applyThreadDetailEvent]
      split
      next thread hplain =>
        refine .inl ⟨thread, hplain, ?_, rfl⟩
        exact activities_of_updated js hplain rfl
      next hplain => exact .inr (.inl ⟨rfl, hplain⟩)
      next hplain => exact .inr (.inr ⟨rfl, hplain⟩)

/-- **With the index, the reducer answers as without it.** -/
theorem Describes.applyThreadDetailEvent_fst (h : m.Describes held) (event : OrchestrationEvent) :
    (m.applyThreadDetailEvent js held event).1.forget =
      Orchestration.applyThreadDetailEvent js held.thread event := by
  rcases applyThreadDetailEvent_cases js m held event with
    ⟨threadId, activity, hpayload, hcall⟩ | ⟨thread, hplain, -, hcall⟩ |
      ⟨thread, hplain, -, hcall⟩ | ⟨hcall, hplain⟩ | ⟨hcall, hplain⟩
  · rw [hcall, Orchestration.applyThreadDetailEvent, hpayload]
    simp only [HeldThreadResult.forget, applyThreadDetailPayload, h.appendActivity_fst]
  all_goals
    rw [hcall, hplain]
    rfl

/-- The list that a call leaves is sorted, or it is a part of the list before. -/
theorem Describes.sorted_or_sublist (h : m.Describes held) {event : OrchestrationEvent}
    {held' : HeldThread} {m' : ActivityMemory}
    (hcall : m.applyThreadDetailEvent js held event = (.updated held', m')) :
    ActivitiesSorted held'.thread.activities ∨
      held'.thread.activities.Sublist held.thread.activities := by
  rcases applyThreadDetailEvent_cases js m held event with
    ⟨threadId, activity, -, heq⟩ | ⟨thread, -, hsublist, heq⟩ |
      ⟨thread, -, hactivities, heq⟩ | ⟨heq, -⟩ | ⟨heq, -⟩ <;>
    cases hcall.symm.trans heq
  · refine .inl ?_
    rw [h.appendActivity_fst]
    exact sorted_appendDetailActivity _ _
  · exact .inr hsublist
  · exact .inr (hactivities ▸ List.Sublist.refl _)

/-- No call brings an id into a list twice. -/
theorem Describes.nodup (h : m.Describes held) {event : OrchestrationEvent}
    {held' : HeldThread} {m' : ActivityMemory}
    (hcall : m.applyThreadDetailEvent js held event = (.updated held', m'))
    (hnodup : (held.thread.activities.map (·.id)).Nodup) :
    (held'.thread.activities.map (·.id)).Nodup := by
  rcases applyThreadDetailEvent_cases js m held event with
    ⟨threadId, activity, -, heq⟩ | ⟨thread, -, hsublist, heq⟩ |
      ⟨thread, -, hactivities, heq⟩ | ⟨heq, -⟩ | ⟨heq, -⟩ <;>
    cases hcall.symm.trans heq
  · rw [h.appendActivity_fst, appendDetailActivity,
      ((stableSort_perm _ _).map _).nodup_iff, List.map_append, List.nodup_append]
    refine ⟨(List.filter_sublist.map _).nodup hnodup, List.nodup_singleton _, ?_⟩
    intro id hid other hother heq
    obtain ⟨entry, hentry, rfl⟩ := List.mem_map.mp hid
    have hne := (of_decide_eq_true (List.mem_filter.mp hentry).2).1
    exact hne (heq.trans (List.mem_singleton.mp hother))
  · exact (hsublist.map _).nodup hnodup
  · exact hactivities.symm ▸ hnodup

end ActivityMemory

/-! ## Trees of calls -/

namespace ReducedThreads

variable (js : JsRuntime)

/-- Every array that is indexed is what the index takes it for. -/
structure Indexed (s : ReducedThreads) : Prop where
  owned : s.memory.Owned
  describes : ∀ held ∈ s.threads, s.memory.Describes held

theorem indexed_init : ({} : ReducedThreads).Indexed where
  owned := ActivityMemory.owned_init
  describes _ h := absurd h List.not_mem_nil

/-- **A call keeps the index right.** -/
theorem Indexed.step {s : ReducedThreads} (h : s.Indexed) (call : ReducerCall) :
    (s.step js call).Indexed := by
  cases call with
  | load thread =>
    refine ⟨h.owned.inNewArray thread, ?_⟩
    rintro held (_ | ⟨_, hheld⟩)
    · exact h.owned.describes_inNewArray thread
    · exact (h.describes held hheld).inNewArray thread
  | reduce index event =>
    rw [ReducedThreads.step]
    split
    next => exact h
    next held hheld =>
      have hdescribes := h.describes held (List.mem_of_getElem? hheld)
      rcases ActivityMemory.applyThreadDetailEvent_cases js s.memory held event with
        ⟨threadId, activity, -, hcall⟩ | ⟨thread, -, -, hcall⟩ | ⟨thread, -, hactivities, hcall⟩ |
          ⟨hcall, -⟩ | ⟨hcall, -⟩ <;> rw [hcall]
      · refine ⟨h.owned.appendActivity held activity, ?_⟩
        rintro other (_ | ⟨_, hother⟩)
        · exact hdescribes.appended activity (hdescribes.appendActivity_fst activity)
        · exact (h.describes other hother).appendActivity h.owned held activity
      · refine ⟨h.owned.inNewArray thread, ?_⟩
        rintro other (_ | ⟨_, hother⟩)
        · exact h.owned.describes_inNewArray thread
        · exact (h.describes other hother).inNewArray thread
      · refine ⟨h.owned, ?_⟩
        rintro other (_ | ⟨_, hother⟩)
        · exact hdescribes.takeOver hactivities
        · exact h.describes other hother
      · exact h
      · exact h

theorem indexed_after (calls : List ReducerCall) : (after js calls).Indexed :=
  foldl_invariant (fun _ call h ↦ h.step js call) indexed_init calls

/-- What can be said of the lists of a client, and of the next call on any of its threads. -/
structure AppendsAsPlain (calls : List ReducerCall) : Prop where
  /-- The reducer answers as the one that always filters and sorts. -/
  result : ∀ held ∈ (after js calls).threads, ∀ event,
    ((after js calls).memory.applyThreadDetailEvent js held event).1.forget =
      applyThreadDetailEvent js held.thread event
  /-- In particular it gives that list of activities, -/
  activities : ∀ held ∈ (after js calls).threads, ∀ activity,
    ((after js calls).memory.appendActivity held activity).1 =
      appendDetailActivity held.thread.activities activity
  /-- which is sorted. -/
  sorted : ∀ held ∈ (after js calls).threads, ∀ activity,
    ActivitiesSorted ((after js calls).memory.appendActivity held activity).1
  /-- Any list is sorted, or it is what reverts have left of a list from elsewhere. -/
  sortedOrLoaded : ∀ held ∈ (after js calls).threads, ActivitiesSorted held.thread.activities ∨
    ∃ thread, .load thread ∈ calls ∧ held.thread.activities.Sublist thread.activities
  /-- No list has an id twice, unless one from elsewhere has. -/
  nodup : (∀ thread, .load thread ∈ calls → (thread.activities.map (·.id)).Nodup) →
    ∀ held ∈ (after js calls).threads, (held.thread.activities.map (·.id)).Nodup

/-- What holds of every thread that is loaded, and of what a call makes of a thread of which it
holds, holds of every thread. -/
theorem forall_after {P : OrchestrationThread → Prop} {calls : List ReducerCall}
    (hload : ∀ thread, .load thread ∈ calls → P thread)
    (hreduce : ∀ (m : ActivityMemory) (held : HeldThread) (event : OrchestrationEvent)
      (held' : HeldThread) (m' : ActivityMemory), m.Describes held → P held.thread →
      m.applyThreadDetailEvent js held event = (.updated held', m') → P held'.thread) :
    ∀ held ∈ (after js calls).threads, P held.thread := by
  have hrun : (after js calls).Indexed ∧ ∀ held ∈ (after js calls).threads, P held.thread := by
    have hall : EveryStep (step js) (fun _ _ ↦ True) {} calls :=
      everyStep_of_forall (fun _ _ ↦ trivial) _ calls
    have hcalls := hall.and_mem
    refine hcalls.foldl_invariant
      (P := fun s : ReducedThreads ↦ s.Indexed ∧ ∀ held ∈ s.threads, P held.thread) ?_
      ⟨indexed_init, fun _ h ↦ absurd h List.not_mem_nil⟩
    rintro s call ⟨hindexed, hP⟩ ⟨-, hcall⟩
    refine ⟨hindexed.step js call, ?_⟩
    cases call with
    | load thread =>
      rintro held (_ | ⟨_, hheld⟩)
      · exact hload thread hcall
      · exact hP held hheld
    | reduce index event =>
      rw [ReducedThreads.step]
      split
      next => exact hP
      next held hheld =>
        have hmem := List.mem_of_getElem? hheld
        split
        next held' m' hresult =>
          rintro other (_ | ⟨_, hother⟩)
          · exact hreduce _ _ _ _ _ (hindexed.describes held hmem) (hP held hmem) hresult
          · exact hP other hother
        next => exact hP
  exact hrun.2

/-- **The shortcut is never taken wrongly**, whatever states the calls are made on. -/
theorem appendsAsPlain (calls : List ReducerCall) : AppendsAsPlain js calls where
  result held hheld event :=
    ((indexed_after js calls).describes held hheld).applyThreadDetailEvent_fst js event
  activities held hheld activity :=
    ((indexed_after js calls).describes held hheld).appendActivity_fst activity
  sorted held hheld activity := by
    rw [((indexed_after js calls).describes held hheld).appendActivity_fst activity]
    exact ActivityMemory.sorted_appendDetailActivity _ _
  sortedOrLoaded := by
    apply forall_after js (P := fun thread' ↦ ActivitiesSorted thread'.activities ∨
      ∃ thread, .load thread ∈ calls ∧ thread'.activities.Sublist thread.activities)
    · exact fun thread hload ↦ .inr ⟨thread, hload, List.Sublist.refl _⟩
    · intro m held event held' m' hdescribes hheld hcall
      rcases hdescribes.sorted_or_sublist js hcall with hsorted | hsublist
      · exact .inl hsorted
      · rcases hheld with hsorted | ⟨thread, hload, hbefore⟩
        · exact .inl (List.Pairwise.sublist hsublist hsorted)
        · exact .inr ⟨thread, hload, hsublist.trans hbefore⟩
  nodup hload :=
    forall_after js (P := fun thread ↦ (thread.activities.map (·.id)).Nodup) hload
      fun _ _ _ _ _ hdescribes hheld hcall ↦ hdescribes.nodup js hcall hheld

/-- A thread as the database gives it: rows without a sequence come first. -/
private def loadedThread : OrchestrationThread where
  id := "t"
  projectId := "p"
  title := "Thread"
  modelSelection := .null
  runtimeMode := .fullAccess
  interactionMode := .default
  branch := none
  worktreePath := none
  createdAt := "2026-01-01T00:00:00.000Z"
  updatedAt := "2026-01-01T00:00:00.000Z"
  activities := [
    { id := "a", tone := .info, kind := "note", summary := "a", payload := .null, turnId := none
      createdAt := "2026-01-01T00:00:00.000Z" },
    { id := "b", tone := .info, kind := "note", summary := "b", payload := .null, turnId := none
      sequence := some 1, createdAt := "2026-01-01T00:00:01.000Z" }]

private def revertOfLoaded : OrchestrationEvent where
  aggregateKind := .thread
  aggregateId := "t"
  occurredAt := "2026-01-01T00:00:02.000Z"
  commandId := "c"
  payload := .thread "t" (.reverted 0)
  sequence := 5

/-- A list that the reducer makes need not be sorted: a revert leaves the order of a snapshot. -/
theorem not_sorted_produced : ¬ ∀ (calls : List ReducerCall),
    ∀ held ∈ (after plainRuntime calls).threads, ∀ event held' memory,
      (after plainRuntime calls).memory.applyThreadDetailEvent plainRuntime held event =
        (.updated held', memory) → ActivitiesSorted held'.thread.activities := by
  intro h
  have hsorted := h [.load loadedThread] { thread := loadedThread, activities := 0 }
    List.mem_cons_self revertOfLoaded _ _ rfl
  revert hsorted
  decide +kernel

end ReducedThreads

end Awen.Orchestration
