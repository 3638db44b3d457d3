import Mathlib.Data.List.Nodup
import Mathlib.Logic.Function.Basic
import Awen.Library.Batches
import Awen.Library.Runs

/-!
# The keyed coalescing worker

A worker that processes values by key, one at a time. A value for a key that is queued or being
processed is merged into the one that waits for the key. A key is *queued* while it is in the queue
or the worker holds it on the way from or to the queue, and *active* while one of its values is
processed.

A step is a transaction, or what the worker does between two of them. `running`, `enqueued` and
`processed` are what has happened; the worker does not keep them.

A value that is `undefined` counts as none when it is read, and a value that is `null` ends the work
on its key.
-/

namespace Awen

/-- How values are merged, and which of them are `undefined` and `null`. -/
structure CoalescingOptions (V : Type) where
  merge : V → V → V
  isUndefined : V → Bool
  isNull : V → Bool

/-- Where the worker's fiber is. -/
inductive WorkerPhase (K V : Type)
  | waiting
  /-- It has taken a key from the queue. -/
  | taken (key : K)
  | processing (key : K) (value : V)
  | succeeded (key : K)
  | failed (key : K)
  /-- It has marked a key as queued and will offer it. -/
  | requeueing (key : K)

structure KeyedCoalescingWorker (K V : Type) where
  latestByKey : K → Option V := fun _ ↦ none
  queuedKeys : K → Bool := fun _ ↦ false
  activeKeys : K → Bool := fun _ ↦ false
  queue : List K := []
  phase : WorkerPhase K V := .waiting
  /-- The values whose processing has started and has not ended. -/
  running : List (K × V) := []
  enqueued : K → List V := fun _ ↦ []
  processed : K → List V := fun _ ↦ []

/-- What happens next: a producer enqueues a value, or the worker goes on. -/
inductive WorkerStep (K V : Type)
  | enqueue (key : K) (value : V)
  | take
  | start
  | succeed
  | fail
  | next
  | cleanupFailedKey
  | offer

namespace KeyedCoalescingWorker

variable {K V : Type} [DecidableEq K] (options : CoalescingOptions V)

/-- `latestByKey.get`. -/
def get (s : KeyedCoalescingWorker K V) (key : K) : Option V :=
  (s.latestByKey key).filter fun value ↦ !options.isUndefined value

/-- The value that is stored for a key when another one is enqueued. -/
def merged (s : KeyedCoalescingWorker K V) (key : K) (value : V) : V :=
  (s.get options key).elim value (options.merge · value)

def enqueue (s : KeyedCoalescingWorker K V) (key : K) (value : V) : KeyedCoalescingWorker K V :=
  let s' := { s with
    latestByKey := Function.update s.latestByKey key (some (s.merged options key value))
    enqueued := Function.update s.enqueued key (s.enqueued key ++ [value]) }
  if s.queuedKeys key || s.activeKeys key then s'
  else
    { s' with
      queuedKeys := Function.update s.queuedKeys key true
      queue := s.queue ++ [key] }

/-- The worker starts to process what has come together for a key. -/
def process (s : KeyedCoalescingWorker K V) (key : K) (value : V) : KeyedCoalescingWorker K V :=
  { s with
    latestByKey := Function.update s.latestByKey key none
    phase := .processing key value
    running := s.running ++ [(key, value)]
    processed := Function.update s.processed key (s.processed key ++ [value]) }

/-- The worker has taken a key. -/
def start (s : KeyedCoalescingWorker K V) (key : K) : KeyedCoalescingWorker K V :=
  let s' := { s with queuedKeys := Function.update s.queuedKeys key false }
  match s.get options key with
  | none => { s' with phase := .waiting }
  | some value =>
    { s' with activeKeys := Function.update s.activeKeys key true }.process key value

/-- A value of a key has been processed. -/
def next (s : KeyedCoalescingWorker K V) (key : K) : KeyedCoalescingWorker K V :=
  match s.get options key with
  | none => { s with activeKeys := Function.update s.activeKeys key false, phase := .waiting }
  | some value =>
    if options.isNull value then
      { s with latestByKey := Function.update s.latestByKey key none, phase := .waiting }
    else s.process key value

/-- The processing of a key has failed. -/
def cleanupFailedKey (s : KeyedCoalescingWorker K V) (key : K) : KeyedCoalescingWorker K V :=
  let s' := { s with activeKeys := Function.update s.activeKeys key false }
  if (s.latestByKey key).isSome && !s.queuedKeys key then
    { s' with queuedKeys := Function.update s.queuedKeys key true, phase := .requeueing key }
  else { s' with phase := .waiting }

/-- **One step.** What cannot happen changes nothing. -/
def step [DecidableEq V] (s : KeyedCoalescingWorker K V) :
    WorkerStep K V → KeyedCoalescingWorker K V
  | .enqueue key value => s.enqueue options key value
  | .take =>
    match s.phase, s.queue with
    | .waiting, key :: queue => { s with phase := .taken key, queue }
    | _, _ => s
  | .start =>
    match s.phase with
    | .taken key => s.start options key
    | _ => s
  | .succeed =>
    match s.phase with
    | .processing key value =>
      { s with phase := .succeeded key, running := s.running.erase (key, value) }
    | _ => s
  | .fail =>
    match s.phase with
    | .processing key value =>
      { s with phase := .failed key, running := s.running.erase (key, value) }
    | _ => s
  | .next =>
    match s.phase with
    | .succeeded key => s.next options key
    | _ => s
  | .cleanupFailedKey =>
    match s.phase with
    | .failed key => s.cleanupFailedKey key
    | _ => s
  | .offer =>
    match s.phase with
    | .requeueing key => { s with phase := .waiting, queue := s.queue ++ [key] }
    | _ => s

/-- Whether `drainKey` completes. -/
def drained (s : KeyedCoalescingWorker K V) (key : K) : Bool :=
  !((s.latestByKey key).isSome || s.queuedKeys key || s.activeKeys key)

/-- **The worker loses no update.** -/
structure LosesNoUpdate (s : KeyedCoalescingWorker K V) : Prop where
  /-- At most one value of a key is processed at a time. -/
  oneAtATime : (s.running.map Prod.fst).Nodup
  /-- Every value is merged, in order, into exactly one that was processed or that is pending. -/
  batched : ∀ key, Batched options.merge (s.enqueued key) (s.processed key) (s.latestByKey key)
  /-- A key that is drained is in no queue, none of its values is processed, and all of them have
  been. -/
  drained : ∀ key, s.drained key = true → key ∉ s.queue ∧ (∀ value, (key, value) ∉ s.running) ∧
    ∃ batches : List (List V), (∀ batch ∈ batches, batch ≠ []) ∧
      batches.flatten = s.enqueued key ∧
      batches.map (mergeAll options.merge) = (s.processed key).map some

/-- What is stored for a key is neither `undefined` nor `null`. -/
def Orderly (s : KeyedCoalescingWorker K V) : WorkerStep K V → Prop
  | .enqueue key value => options.isUndefined (s.merged options key value) = false ∧
      options.isNull (s.merged options key value) = false
  | _ => True

/-! ## Where keys are -/

/-- The keys that the worker holds on the way from or to the queue, and those in the queue. -/
def waitingKeys (s : KeyedCoalescingWorker K V) : List K :=
  match s.phase with
  | .taken key | .requeueing key => key :: s.queue
  | _ => s.queue

/-- The key whose value the worker is at. -/
def workingKey? (s : KeyedCoalescingWorker K V) : Option K :=
  match s.phase with
  | .processing key _ | .succeeded key | .failed key => some key
  | _ => none

/-- The value that the worker is processing. -/
def workingValue? (s : KeyedCoalescingWorker K V) : Option (K × V) :=
  match s.phase with
  | .processing key value => some (key, value)
  | _ => none

/-- **The invariant.** A key is queued where it waits, once; it is active where the worker is at it;
and nothing is pending for a key that is neither. -/
structure Inv (s : KeyedCoalescingWorker K V) : Prop where
  nodup : s.waitingKeys.Nodup
  queued : ∀ key, s.queuedKeys key = true ↔ key ∈ s.waitingKeys
  active : ∀ key, s.activeKeys key = true ↔ s.workingKey? = some key
  running : s.running = s.workingValue?.toList
  pending : ∀ key, (s.latestByKey key).isSome → s.queuedKeys key = true ∨ s.activeKeys key = true
  apart : ∀ key, ¬(s.queuedKeys key = true ∧ s.activeKeys key = true)
  values : ∀ key, ∀ value ∈ s.latestByKey key,
    options.isUndefined value = false ∧ options.isNull value = false
  batched : ∀ key, Batched options.merge (s.enqueued key) (s.processed key) (s.latestByKey key)

variable {options} {s : KeyedCoalescingWorker K V}

omit [DecidableEq K] in
theorem inv_init : Inv options ({} : KeyedCoalescingWorker K V) where
  nodup := List.nodup_nil
  queued _ := iff_of_false Bool.false_ne_true List.not_mem_nil
  active _ := iff_of_false Bool.false_ne_true nofun
  running := rfl
  pending _ h := absurd h nofun
  apart _ h := absurd h.1 Bool.false_ne_true
  values _ _ h := absurd h nofun
  batched _ := batched_nil

omit [DecidableEq K] in
theorem Inv.get (h : s.Inv options) (key : K) : s.get options key = s.latestByKey key := by
  rw [KeyedCoalescingWorker.get]
  obtain hnone | ⟨value, hvalue⟩ := (s.latestByKey key).eq_none_or_eq_some
  · rw [hnone]
    rfl
  · rw [hvalue, Option.filter_some, (h.values key value hvalue).1]
    rfl

/-- A value is enqueued. -/
theorem Inv.enqueue (h : s.Inv options) {key : K} {value : V}
    (hvalue : options.isUndefined (s.merged options key value) = false ∧
      options.isNull (s.merged options key value) = false) :
    (s.enqueue options key value).Inv options := by
  have hvalues : ∀ k, ∀ v ∈ Function.update s.latestByKey key
      (some (s.merged options key value)) k,
      options.isUndefined v = false ∧ options.isNull v = false := by
    intro k v hv
    by_cases hk : k = key
    · subst hk
      rw [Function.update_self] at hv
      exact Option.some.inj hv ▸ hvalue
    · rw [Function.update_of_ne hk] at hv
      exact h.values k v hv
  have hbatched : ∀ k, Batched options.merge
      (Function.update s.enqueued key (s.enqueued key ++ [value]) k) (s.processed k)
      (Function.update s.latestByKey key (some (s.merged options key value)) k) := by
    intro k
    by_cases hk : k = key
    · subst hk
      rw [Function.update_self, Function.update_self, merged, h.get]
      exact (h.batched k).enter value
    · rw [Function.update_of_ne hk, Function.update_of_ne hk]
      exact h.batched k
  unfold KeyedCoalescingWorker.enqueue
  split
  · rename_i hin
    have hbusy : s.queuedKeys key = true ∨ s.activeKeys key = true := (Bool.or_eq_true _ _).mp hin
    refine ⟨h.nodup, h.queued, h.active, h.running, fun k hk ↦ ?_, h.apart, hvalues, hbatched⟩
    by_cases hkey : k = key
    · rw [hkey]
      exact hbusy
    · simp only [Function.update_of_ne hkey] at hk
      exact h.pending k hk
  · rename_i hout
    rw [Bool.or_eq_true, not_or, Bool.not_eq_true, Bool.not_eq_true] at hout
    obtain ⟨hqueued, hactive⟩ := hout
    have hnot : key ∉ s.waitingKeys := fun hmem ↦
      Bool.false_ne_true (hqueued.symm.trans ((h.queued key).mpr hmem))
    have hwaiting : waitingKeys { s with
        latestByKey := Function.update s.latestByKey key (some (s.merged options key value))
        enqueued := Function.update s.enqueued key (s.enqueued key ++ [value])
        queuedKeys := Function.update s.queuedKeys key true
        queue := s.queue ++ [key] } = s.waitingKeys ++ [key] := by
      unfold waitingKeys
      cases s.phase <;> rfl
    refine ⟨?_, fun k ↦ ?_, h.active, h.running, fun k hk ↦ ?_, fun k ↦ ?_, hvalues, hbatched⟩
    · rw [hwaiting]
      refine List.nodup_append.mpr ⟨h.nodup, List.nodup_singleton key, fun k hk k' hk' ↦ ?_⟩
      rw [List.mem_singleton.mp hk']
      rintro rfl
      exact hnot hk
    · rw [hwaiting, List.mem_append, List.mem_singleton]
      by_cases hkey : k = key
      · simp [hkey]
      · simp only [Function.update_of_ne hkey, h.queued k, hkey, or_false]
    · by_cases hkey : k = key
      · left
        simp [hkey]
      · simp only [Function.update_of_ne hkey] at hk ⊢
        exact h.pending k hk
    · by_cases hkey : k = key
      · simp [hkey, hactive]
      · simp only [Function.update_of_ne hkey]
        exact h.apart k

omit [DecidableEq K] in
/-- The worker takes the next key. -/
theorem Inv.take (h : s.Inv options) {key : K} {queue : List K} (hphase : s.phase = .waiting)
    (hqueue : s.queue = key :: queue) : Inv options { s with phase := .taken key, queue } where
  nodup := by
    have hnodup := h.nodup
    rwa [waitingKeys, hphase, hqueue] at hnodup
  queued k := by
    have hqueued := h.queued k
    rwa [waitingKeys, hphase, hqueue] at hqueued
  active k := by
    have hactive := h.active k
    rwa [workingKey?, hphase] at hactive
  running := by
    have hrunning := h.running
    rwa [workingValue?, hphase] at hrunning
  pending := h.pending
  apart := h.apart
  values := h.values
  batched := h.batched

/-- What has come together for a key goes to be processed. -/
theorem batched_process (h : s.Inv options) {key : K} {value : V}
    (hvalue : s.latestByKey key = some value) (k : K) :
    Batched options.merge (s.enqueued k)
      (Function.update s.processed key (s.processed key ++ [value]) k)
      (Function.update s.latestByKey key none k) := by
  by_cases hk : k = key
  · subst hk
    rw [Function.update_self, Function.update_self]
    exact (hvalue ▸ h.batched k).take
  · rw [Function.update_of_ne hk, Function.update_of_ne hk]
    exact h.batched k

theorem values_clear (h : s.Inv options) (key : K) :
    ∀ k, ∀ v ∈ Function.update s.latestByKey key none k,
      options.isUndefined v = false ∧ options.isNull v = false := by
  intro k v hv
  by_cases hk : k = key
  · subst hk
    rw [Function.update_self] at hv
    exact absurd hv nofun
  · rw [Function.update_of_ne hk] at hv
    exact h.values k v hv

/-- The worker starts to process the key that it has taken. -/
theorem Inv.start (h : s.Inv options) {key : K} (hphase : s.phase = .taken key) :
    (s.start options key).Inv options := by
  have hwaiting : s.waitingKeys = key :: s.queue := by rw [waitingKeys, hphase]
  have hnodup := h.nodup
  rw [hwaiting, List.nodup_cons] at hnodup
  have hworking : s.workingKey? = none := by rw [workingKey?, hphase]
  have hqueued : ∀ k, Function.update s.queuedKeys key false k = true ↔ k ∈ s.queue := by
    intro k
    by_cases hk : k = key
    · subst hk
      simpa using hnodup.1
    · rw [Function.update_of_ne hk, h.queued k, hwaiting, List.mem_cons, or_iff_right hk]
  have hnoActive : ∀ k, s.activeKeys k = false := by
    intro k
    rw [← Bool.not_eq_true, h.active k, hworking]
    exact nofun
  have hrunning : s.running = [] := by rw [h.running, workingValue?, hphase]; rfl
  unfold KeyedCoalescingWorker.start
  rw [h.get]
  obtain hnone | ⟨value, hvalue⟩ := (s.latestByKey key).eq_none_or_eq_some
  · rw [hnone]
    refine ⟨hnodup.2, hqueued, fun k ↦ ?_, hrunning, fun k hk ↦ ?_, fun k ↦ ?_, h.values, h.batched⟩
    · exact iff_of_false (by simp [hnoActive]) nofun
    · have hne : k ≠ key := by
        rintro rfl
        rw [hnone] at hk
        exact absurd hk nofun
      simp only [Function.update_of_ne hne]
      exact h.pending k hk
    · simp [hnoActive]
  · rw [hvalue]
    refine ⟨hnodup.2, hqueued, fun k ↦ ?_, by simp [process, hrunning, workingValue?],
      fun k hk ↦ ?_, fun k ↦ ?_, values_clear h key, batched_process h hvalue⟩
    · by_cases hk : k = key
      · simp [process, workingKey?, hk]
      · simp [process, workingKey?, hk, hnoActive, Ne.symm hk]
    · have hne : k ≠ key := by
        rintro rfl
        simp [process] at hk
      simp only [process, Function.update_of_ne hne] at hk ⊢
      exact h.pending k hk
    · by_cases hk : k = key
      · simp [process, hk]
      · simp [process, Function.update_of_ne hk, hnoActive]

/-- The processing of a value ends. -/
theorem Inv.finish [DecidableEq V] (h : s.Inv options) {key : K} {value : V}
    (hphase : s.phase = .processing key value) {phase : WorkerPhase K V}
    (hnext : phase = .succeeded key ∨ phase = .failed key) :
    Inv options { s with phase, running := s.running.erase (key, value) } := by
  have hwaiting : s.waitingKeys = s.queue := by rw [waitingKeys, hphase]
  have hworking : s.workingKey? = some key := by rw [workingKey?, hphase]
  have hrunning : s.running = [(key, value)] := by rw [h.running, workingValue?, hphase]; rfl
  have hactive : ∀ k, s.activeKeys k = true ↔ some key = some k := fun k ↦ hworking ▸ h.active k
  rcases hnext with rfl | rfl
  · exact ⟨hwaiting ▸ h.nodup, fun k ↦ hwaiting ▸ h.queued k, hactive,
      by simp [hrunning, workingValue?], h.pending, h.apart, h.values, h.batched⟩
  · exact ⟨hwaiting ▸ h.nodup, fun k ↦ hwaiting ▸ h.queued k, hactive,
      by simp [hrunning, workingValue?], h.pending, h.apart, h.values, h.batched⟩

/-- Where the worker is done with its key, that key is no longer active, and no other is. -/
theorem activeKeys_clear (h : s.Inv options) {key : K}
    (hworking : s.workingKey? = some key) (k : K) :
    Function.update s.activeKeys key false k = false := by
  by_cases hk : k = key
  · rw [hk, Function.update_self]
  · rw [Function.update_of_ne hk, ← Bool.not_eq_true, h.active k, hworking]
    exact fun heq ↦ hk (Option.some.inj heq).symm

/-- After a value has been processed, the worker goes on with the next one of its key, or waits. -/
theorem Inv.next (h : s.Inv options) {key : K} (hphase : s.phase = .succeeded key) :
    (s.next options key).Inv options := by
  have hwaiting : s.waitingKeys = s.queue := by rw [waitingKeys, hphase]
  have hworking : s.workingKey? = some key := by rw [workingKey?, hphase]
  have hrunning : s.running = [] := by rw [h.running, workingValue?, hphase]; rfl
  have hqueued : ∀ k, s.queuedKeys k = true ↔ k ∈ s.queue := fun k ↦ hwaiting ▸ h.queued k
  have hnodup : s.queue.Nodup := hwaiting ▸ h.nodup
  have hactive : ∀ k, s.activeKeys k = true ↔ some key = some k := fun k ↦ hworking ▸ h.active k
  unfold KeyedCoalescingWorker.next
  rw [h.get]
  obtain hnone | ⟨value, hvalue⟩ := (s.latestByKey key).eq_none_or_eq_some
  · rw [hnone]
    refine ⟨hnodup, hqueued, fun k ↦ ?_, hrunning, fun k hk ↦ ?_, fun k hk ↦ ?_, h.values,
      h.batched⟩
    · exact iff_of_false (by simp [activeKeys_clear h hworking]) nofun
    · have hne : k ≠ key := by
        rintro rfl
        rw [hnone] at hk
        exact absurd hk nofun
      simp only [Function.update_of_ne hne]
      exact h.pending k hk
    · exact Bool.false_ne_true ((activeKeys_clear h hworking k).symm.trans hk.2)
  · rw [hvalue]
    dsimp only
    rw [if_neg (by rw [(h.values key value hvalue).2]; exact Bool.false_ne_true)]
    refine ⟨hnodup, hqueued, hactive, by simp [process, hrunning, workingValue?], fun k hk ↦ ?_,
      h.apart, values_clear h key, batched_process h hvalue⟩
    have hne : k ≠ key := by
      rintro rfl
      simp [process] at hk
    simp only [process, Function.update_of_ne hne] at hk ⊢
    exact h.pending k hk

/-- After a failure the key is queued again if something is pending for it. -/
theorem Inv.cleanupFailedKey (h : s.Inv options) {key : K} (hphase : s.phase = .failed key) :
    (s.cleanupFailedKey key).Inv options := by
  have hwaiting : s.waitingKeys = s.queue := by rw [waitingKeys, hphase]
  have hworking : s.workingKey? = some key := by rw [workingKey?, hphase]
  have hrunning : s.running = [] := by rw [h.running, workingValue?, hphase]; rfl
  have hqueued : ∀ k, s.queuedKeys k = true ↔ k ∈ s.queue := fun k ↦ hwaiting ▸ h.queued k
  have hnodup : s.queue.Nodup := hwaiting ▸ h.nodup
  have hactive := activeKeys_clear h hworking
  have hnotQueued : s.queuedKeys key = false := by
    rw [← Bool.not_eq_true]
    exact fun hq ↦ h.apart key ⟨hq, (h.active key).mpr hworking⟩
  have hnot : key ∉ s.queue := fun hmem ↦
    Bool.false_ne_true (hnotQueued.symm.trans ((hqueued key).mpr hmem))
  unfold KeyedCoalescingWorker.cleanupFailedKey
  dsimp only
  split
  · refine ⟨List.nodup_cons.mpr ⟨hnot, hnodup⟩, fun k ↦ ?_, fun k ↦ ?_, hrunning, fun k hk ↦ ?_,
      fun k hk ↦ ?_, h.values, h.batched⟩
    · by_cases hk : k = key
      · simp [hk, waitingKeys]
      · simp only [Function.update_of_ne hk, hqueued k, waitingKeys, List.mem_cons, hk, false_or]
    · exact iff_of_false (by simp [hactive]) nofun
    · by_cases hne : k = key
      · left
        simp [hne]
      · simp only [Function.update_of_ne hne]
        exact h.pending k hk
    · exact Bool.false_ne_true ((hactive k).symm.trans hk.2)
  · rename_i hidle
    have hlatest : s.latestByKey key = none := by
      rw [hnotQueued, Bool.not_false, Bool.and_true, Option.not_isSome_iff_eq_none] at hidle
      exact hidle
    refine ⟨hnodup, hqueued, fun k ↦ ?_, hrunning, fun k hk ↦ ?_, fun k hk ↦ ?_,
      h.values, h.batched⟩
    · exact iff_of_false (by simp [hactive]) nofun
    · have hne : k ≠ key := by
        rintro rfl
        rw [hlatest] at hk
        exact absurd hk nofun
      simp only [Function.update_of_ne hne]
      exact h.pending k hk
    · exact Bool.false_ne_true ((hactive k).symm.trans hk.2)

omit [DecidableEq K] in
/-- The worker offers the key that it has marked. -/
theorem Inv.offer (h : s.Inv options) {key : K} (hphase : s.phase = .requeueing key) :
    Inv options { s with phase := .waiting, queue := s.queue ++ [key] } := by
  have hwaiting : s.waitingKeys = key :: s.queue := by rw [waitingKeys, hphase]
  have hworking : s.workingKey? = none := by rw [workingKey?, hphase]
  have hrunning : s.running = [] := by rw [h.running, workingValue?, hphase]; rfl
  have hactive : ∀ k, s.activeKeys k = true ↔ none = some k := fun k ↦ hworking ▸ h.active k
  have hperm : (s.queue ++ [key]).Perm s.waitingKeys := hwaiting ▸ List.perm_append_singleton _ _
  refine ⟨hperm.nodup_iff.mpr h.nodup, fun k ↦ ?_, hactive, hrunning, h.pending,
    h.apart, h.values, h.batched⟩
  exact (h.queued k).trans hperm.mem_iff.symm

/-! ## Runs -/

/-- **Every step keeps the invariant**, if what is stored is neither `undefined` nor `null`. -/
theorem Inv.step [DecidableEq V] (h : s.Inv options) {i : WorkerStep K V}
    (hi : s.Orderly options i) :
    (s.step options i).Inv options := by
  cases i with
  | enqueue key value => exact h.enqueue hi
  | take =>
    simp only [KeyedCoalescingWorker.step]
    split
    · rename_i key queue hphase hqueue
      exact h.take hphase hqueue
    · exact h
  | start =>
    simp only [KeyedCoalescingWorker.step]
    split
    · rename_i key hphase
      exact h.start hphase
    · exact h
  | succeed =>
    simp only [KeyedCoalescingWorker.step]
    split
    · rename_i key value hphase
      exact h.finish hphase (.inl rfl)
    · exact h
  | fail =>
    simp only [KeyedCoalescingWorker.step]
    split
    · rename_i key value hphase
      exact h.finish hphase (.inr rfl)
    · exact h
  | next =>
    simp only [KeyedCoalescingWorker.step]
    split
    · rename_i key hphase
      exact h.next hphase
    · exact h
  | cleanupFailedKey =>
    simp only [KeyedCoalescingWorker.step]
    split
    · rename_i key hphase
      exact h.cleanupFailedKey hphase
    · exact h
  | offer =>
    simp only [KeyedCoalescingWorker.step]
    split
    · rename_i key hphase
      exact h.offer hphase
    · exact h

omit [DecidableEq K] in
theorem Inv.losesNoUpdate (h : s.Inv options) : s.LosesNoUpdate options where
  oneAtATime := by
    rw [h.running]
    cases s.workingValue? with
    | none => exact List.nodup_nil
    | some running => exact List.nodup_singleton _
  batched := h.batched
  drained key hdrained := by
    rw [drained, Bool.not_eq_true', Bool.or_eq_false_iff, Bool.or_eq_false_iff] at hdrained
    obtain ⟨⟨hlatest, hqueued⟩, hactive⟩ := hdrained
    have hnone : s.latestByKey key = none := by
      rwa [Option.isSome_eq_false_iff, Option.isNone_iff_eq_none] at hlatest
    refine ⟨fun hmem ↦ ?_, fun value hmem ↦ ?_, (hnone ▸ h.batched key).all_taken⟩
    · have hwaiting : key ∈ s.waitingKeys := by
        unfold waitingKeys
        cases s.phase with
        | taken | requeueing => exact List.mem_cons_of_mem _ hmem
        | waiting | processing | succeeded | failed => exact hmem
      exact Bool.false_ne_true (hqueued.symm.trans ((h.queued key).mpr hwaiting))
    · have hworking : s.workingKey? = some key := by
        rw [h.running, Option.mem_toList, workingValue?] at hmem
        rw [workingKey?]
        cases hphase : s.phase with
        | processing k v =>
          rw [hphase] at hmem
          rw [(Prod.mk.inj (Option.some.inj hmem)).1]
        | _ =>
          rw [hphase] at hmem
          exact absurd hmem nofun
      exact Bool.false_ne_true (hactive.symm.trans ((h.active key).mpr hworking))

variable (options) in
/-- The state after a run. -/
def after [DecidableEq V] (inputs : List (WorkerStep K V)) : KeyedCoalescingWorker K V :=
  inputs.foldl (step options) {}

/-- **The keyed coalescing worker loses no update**, whatever producers and the worker do in
whatever order, if no value that is stored is `undefined` or `null`. -/
theorem losesNoUpdate_of_orderly [DecidableEq V] (inputs : List (WorkerStep K V))
    (h : EveryStep (step options) (Orderly options) {} inputs) :
    (after options inputs).LosesNoUpdate options :=
  (h.foldl_invariant (fun _ _ hs hi ↦ hs.step hi) inv_init).losesNoUpdate

/-- Numbers or `null`, of which the latest counts. -/
def latestWins : CoalescingOptions (Option ℕ) where
  merge _ next := next
  isUndefined _ := false
  isNull value := value.isNone

/-- A value comes in while another is processed, and its processing fails; it is queued again. -/
theorem losesNoUpdate_of_orderly_failed :
    let run : List (WorkerStep String (Option ℕ)) :=
      [.enqueue "k" (some 1), .take, .start, .enqueue "k" (some 2), .enqueue "k" (some 3), .fail,
        .cleanupFailedKey, .offer, .take, .start, .succeed, .next]
    LosesNoUpdate latestWins (after latestWins run) ∧
      (after latestWins run).processed "k" = [some 1, some 3] ∧
      drained (after latestWins run) "k" = true :=
  ⟨losesNoUpdate_of_orderly _ ⟨⟨rfl, rfl⟩, trivial, trivial, ⟨rfl, by decide⟩, ⟨rfl, by decide⟩,
    trivial, trivial, trivial, trivial, trivial, trivial, trivial, trivial⟩, by decide, by decide⟩

/-- A `null` that comes in while another value is processed is lost. -/
theorem not_losesNoUpdate_runs : ¬ ∀ inputs : List (WorkerStep String (Option ℕ)),
    LosesNoUpdate latestWins (after latestWins inputs) := by
  intro h
  have hbatched := (h [.enqueue "k" (some 1), .take, .start, .enqueue "k" none, .succeed,
    .next]).batched "k"
  obtain ⟨batches, -, hflatten, hmerged⟩ := hbatched.all_taken
  -- only one batch was processed, so it would have to be that of both values
  obtain ⟨batch, rest, rfl, hbatch, hrest⟩ := List.map_eq_cons_iff.mp hmerged
  obtain rfl := List.map_eq_nil_iff.mp hrest
  rw [List.flatten_cons, List.flatten_nil, List.append_nil] at hflatten
  rw [hflatten] at hbatch
  exact absurd hbatch (by decide)

end KeyedCoalescingWorker

end Awen
