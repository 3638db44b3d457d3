import Mathlib.Data.List.Nodup
import Awen.Project.SetupStreams

/-!
# Runs of the tracker

A removal that waits is the one that is registered for its thread, and its setup is no earlier than
the one whose entry is in place (`RetentionInv`). With the order of what is published, this holds in
every run whose steps are `Orderly`. Without the condition, the setup script of one setup, which may
end long after that setup has, changes the snapshot of the next.
-/

namespace Awen.Project

open Orchestration (ThreadId)

namespace SetupTracker

variable {s s' : SetupTracker} {threadId : ThreadId}

/-! ## Removals that wait -/

/-- At most one removal waits for a thread: the registered one. The entry that it will remove is of
no later setup than the one whose end has scheduled it. -/
structure RetentionInv (s : SetupTracker) : Prop where
  distinct : (s.fibers.map (·.threadId)).Nodup
  registered : ∀ fiber ∈ s.fibers, s.retentionFibers fiber.threadId = some fiber.id
  notLater : ∀ fiber ∈ s.fibers, s.NotLater fiber.setup fiber.threadId
  removals : ∀ removal ∈ s.removals, ¬ removal.1 < removal.2

theorem retentionInv_init : RetentionInv {} :=
  ⟨List.nodup_nil, nofun, nofun, nofun⟩

theorem RetentionInv.of_eq (h : s.RetentionInv) (hfibers : s'.fibers = s.fibers)
    (hregistered : s'.retentionFibers = s.retentionFibers)
    (hsetups : ∀ t, (s'.setups t).isSome = (s.setups t).isSome) (howner : s'.owner = s.owner)
    (hremovals : s'.removals = s.removals) : s'.RetentionInv where
  distinct := hfibers ▸ h.distinct
  registered := by
    rw [hfibers, hregistered]
    exact h.registered
  notLater fiber hfiber := by
    rw [NotLater, hsetups, howner]
    exact h.notLater fiber (hfibers ▸ hfiber)
  removals := hremovals ▸ h.removals

theorem isSome_setups_modify (setup : ℕ) (threadId : ThreadId)
    (mutate : TrackedSetup → TrackedSetup) (t : ThreadId) :
    ((s.modify setup threadId mutate).setups t).isSome = (s.setups t).isSome := by
  unfold SetupTracker.modify
  split
  · rfl
  · rename_i existing hexisting
    by_cases ht : t = threadId
    · simp [publish, ht, hexisting]
    · simp [publish, Function.update_of_ne ht]

theorem RetentionInv.modify (h : s.RetentionInv) (setup : ℕ) (threadId : ThreadId)
    (mutate : TrackedSetup → TrackedSetup) : (s.modify setup threadId mutate).RetentionInv := by
  have hfields : (s.modify setup threadId mutate).fibers = s.fibers ∧
      (s.modify setup threadId mutate).retentionFibers = s.retentionFibers ∧
      (s.modify setup threadId mutate).owner = s.owner ∧
      (s.modify setup threadId mutate).removals = s.removals := by
    unfold SetupTracker.modify
    split
    · exact ⟨rfl, rfl, rfl, rfl⟩
    · exact ⟨rfl, rfl, rfl, rfl⟩
  obtain ⟨hfibers, hregistered, howner, hremovals⟩ := hfields
  exact h.of_eq hfibers hregistered (isSome_setups_modify setup threadId mutate) howner hremovals

/-- Where a thread's registration has gone, no removal waits for the thread. -/
theorem RetentionInv.clearRetention (h : s.RetentionInv) (threadId : ThreadId) :
    (s.clearRetention threadId).RetentionInv := by
  unfold SetupTracker.clearRetention
  split
  · exact h
  · rename_i id hid
    refine ⟨h.distinct.sublist (List.filter_sublist.map _), fun fiber hfiber ↦ ?_,
      fun fiber hfiber ↦ h.notLater fiber (List.mem_of_mem_filter hfiber), h.removals⟩
    obtain ⟨hmem, hne⟩ := List.mem_filter.mp hfiber
    have hregistered := h.registered fiber hmem
    have hother : fiber.threadId ≠ threadId := by
      rintro rfl
      simp [Option.some.inj (hregistered.symm.trans hid)] at hne
    exact (Function.update_of_ne hother _ _).trans hregistered

theorem RetentionInv.threadId_ne (h : s.RetentionInv) (hnone : s.retentionFibers threadId = none)
    {fiber : RetentionFiber} (hfiber : fiber ∈ s.fibers) : fiber.threadId ≠ threadId := by
  rintro rfl
  exact Option.some_ne_none _ ((h.registered fiber hfiber).symm.trans hnone)

/-- A setup starts on a thread for which no removal waits. -/
theorem RetentionInv.store (h : s.RetentionInv) {setup : ℕ} {input : SetupInput}
    (hnone : s.retentionFibers input.threadId = none) : (s.store setup input).RetentionInv where
  distinct := h.distinct
  registered := h.registered
  notLater fiber hfiber := by
    simp only [NotLater, SetupTracker.store, publish,
      Function.update_of_ne (h.threadId_ne hnone hfiber)]
    exact h.notLater fiber hfiber
  removals := h.removals

theorem RetentionInv.fork (h : s.RetentionInv) {setup : ℕ}
    (hnone : s.retentionFibers threadId = none) (hsetup : s.NotLater setup threadId) :
    (s.fork setup threadId).RetentionInv where
  distinct := by
    rw [SetupTracker.fork, List.map_append, List.nodup_append]
    refine ⟨h.distinct, List.pairwise_singleton _ _, fun t ht t' ht' ↦ ?_⟩
    obtain ⟨fiber, hfiber, rfl⟩ := List.mem_map.mp ht
    rw [List.mem_singleton.mp ht']
    exact h.threadId_ne hnone hfiber
  registered fiber hfiber := by
    rcases List.mem_append.mp hfiber with hold | hnew
    · exact (Function.update_of_ne (h.threadId_ne hnone hold) _ _).trans
        (h.registered fiber hold)
    · obtain rfl := List.mem_singleton.mp hnew
      exact Function.update_self ..
  notLater fiber hfiber := by
    rcases List.mem_append.mp hfiber with hold | hnew
    · exact h.notLater fiber hold
    · obtain rfl := List.mem_singleton.mp hnew
      exact hsetup
  removals := h.removals

/-- The entry that a removal takes away is of no later setup. -/
theorem removals_elapse {fiber : RetentionFiber}
    (h : ∀ removal ∈ s.removals, ¬ removal.1 < removal.2)
    (hfiber : s.NotLater fiber.setup fiber.threadId) :
    ∀ removal ∈ (s.elapse fiber).removals, ¬ removal.1 < removal.2 := by
  have hremovals : (s.elapse fiber).removals = (s.remove fiber.setup fiber.threadId).removals := by
    unfold SetupTracker.elapse
    split <;> rfl
  rw [hremovals]
  unfold remove publish
  split
  · rename_i hsome
    intro removal hmem
    rcases List.mem_append.mp hmem with hold | hnew
    · exact h removal hold
    · exact List.mem_singleton.mp hnew ▸ Nat.not_lt.mpr (hfiber hsome)
  · exact h

theorem fibers_elapse (fiber : RetentionFiber) : (s.elapse fiber).fibers = s.fibers := by
  unfold elapse remove publish
  split <;> split <;> rfl

theorem owner_elapse (fiber : RetentionFiber) : (s.elapse fiber).owner = s.owner := by
  unfold elapse remove publish
  split <;> split <;> rfl

theorem setups_elapse_of_ne {fiber : RetentionFiber} (h : threadId ≠ fiber.threadId) :
    (s.elapse fiber).setups threadId = s.setups threadId := by
  have hremove := (publishes_remove fiber.setup fiber.threadId).setups (s := s) threadId h
  unfold elapse
  split <;> exact hremove

theorem retentionFibers_elapse_of_ne {fiber : RetentionFiber} (h : threadId ≠ fiber.threadId) :
    (s.elapse fiber).retentionFibers threadId = s.retentionFibers threadId := by
  have hremove : (s.remove fiber.setup fiber.threadId).retentionFibers = s.retentionFibers := by
    unfold remove publish
    split <;> rfl
  unfold elapse
  split
  · exact Function.update_of_ne h _ _
  · rw [hremove]

/-- The time of a removal comes, and none waits for its thread any more. -/
theorem RetentionInv.elapse (h : s.RetentionInv) {fiber : RetentionFiber}
    (hothers : ∀ other ∈ s.fibers, other.threadId ≠ fiber.threadId)
    (hfiber : s.NotLater fiber.setup fiber.threadId) : (s.elapse fiber).RetentionInv where
  distinct := (fibers_elapse fiber).symm ▸ h.distinct
  registered other hother := by
    rw [fibers_elapse] at hother
    rw [retentionFibers_elapse_of_ne (hothers other hother)]
    exact h.registered other hother
  notLater other hother := by
    rw [fibers_elapse] at hother
    rw [NotLater, setups_elapse_of_ne (hothers other hother), owner_elapse]
    exact h.notLater other hother
  removals := removals_elapse h.removals hfiber

/-- A removal leaves those that wait. -/
theorem RetentionInv.eraseIdx (h : s.RetentionInv) (i : ℕ) :
    RetentionInv { s with fibers := s.fibers.eraseIdx i } where
  distinct := h.distinct.sublist ((List.eraseIdx_sublist _ _).map _)
  registered fiber hfiber := h.registered fiber ((List.eraseIdx_sublist _ _).subset hfiber)
  notLater fiber hfiber := h.notLater fiber ((List.eraseIdx_sublist _ _).subset hfiber)
  removals := h.removals

/-- The other removals that wait are for other threads. -/
theorem RetentionInv.threadId_ne_of_getElem? (h : s.RetentionInv) {i : ℕ} {fiber : RetentionFiber}
    (hi : s.fibers[i]? = some fiber) :
    ∀ other ∈ s.fibers.eraseIdx i, other.threadId ≠ fiber.threadId := by
  obtain ⟨hlt, rfl⟩ := List.getElem?_eq_some_iff.mp hi
  have hdistinct := h.distinct
  rw [← List.take_append_drop i s.fibers, List.drop_eq_getElem_cons hlt, List.map_append,
    List.map_cons, List.nodup_middle, List.nodup_cons, ← List.map_append,
    ← List.eraseIdx_eq_take_drop_succ] at hdistinct
  exact fun other hother heq ↦ hdistinct.1 (List.mem_map.mpr ⟨other, hother, heq⟩)

/-- **Every orderly step keeps the removals to their setups.** -/
theorem RetentionInv.step (h : s.RetentionInv) {i : SetupStep} (hi : s.Orderly i) :
    (s.step i).RetentionInv := by
  cases i with
  | beginCalled input =>
    exact (h.clearRetention input.threadId).of_eq rfl rfl (fun _ ↦ rfl) rfl rfl
  | beginStored i =>
    simp only [SetupTracker.step]
    split
    · exact h
    · rename_i setup input hcall
      have h' : RetentionInv { s with beginning := s.beginning.eraseIdx i } :=
        h.of_eq rfl rfl (fun _ ↦ rfl) rfl rfl
      exact h'.store (hi _ hcall)
  | updated setup threadId update => exact h.modify _ _ _
  | finishCalled setup threadId outcome =>
    simp only [SetupTracker.step, finish]
    split
    · exact ((h.modify _ _ _).clearRetention threadId).of_eq rfl rfl (fun _ ↦ rfl) rfl rfl
    · exact h.modify _ _ _
  | finishForked i =>
    simp only [SetupTracker.step]
    split
    · exact h
    · rename_i setup threadId hcall
      have h' : RetentionInv { s with finishing := s.finishing.eraseIdx i } :=
        h.of_eq rfl rfl (fun _ ↦ rfl) rfl rfl
      exact h'.fork (hi _ hcall).1 (hi _ hcall).2
  | retentionElapsed i =>
    simp only [SetupTracker.step]
    split
    · exact h
    · rename_i fiber hfiber
      exact (h.eraseIdx i).elapse (h.threadId_ne_of_getElem? hfiber)
        (h.notLater fiber (List.mem_of_getElem? hfiber))
  | subscribed | snapshotRead | changeDelivered | itemReceived =>
    exact h.of_eq rfl rfl (fun _ ↦ rfl) rfl rfl

/-! ## Updates -/

/-- An update changes the snapshot of the setup that is in place, if any. -/
theorem updates_modify {setup : ℕ} (mutate : TrackedSetup → TrackedSetup)
    (h : ∀ update ∈ s.updates, ¬ update.1 < update.2) (hsetup : s.NotLater setup threadId) :
    ∀ update ∈ (s.modify setup threadId mutate).updates, ¬ update.1 < update.2 := by
  unfold modify publish
  split
  · exact h
  · rename_i existing hexisting
    intro update hmem
    rcases List.mem_append.mp hmem with hold | hnew
    · exact h update hold
    · obtain rfl := List.mem_singleton.mp hnew
      exact Nat.not_lt.mpr (hsetup (by rw [hexisting]; rfl))

theorem updates_clearRetention (threadId : ThreadId) :
    (s.clearRetention threadId).updates = s.updates := by
  unfold clearRetention
  split <;> rfl

theorem updates_elapse (fiber : RetentionFiber) : (s.elapse fiber).updates = s.updates := by
  unfold elapse remove publish
  split <;> split <;> rfl

/-- An orderly step changes the snapshot of no later setup. -/
theorem updates_step (h : ∀ update ∈ s.updates, ¬ update.1 < update.2) {i : SetupStep}
    (hi : s.Orderly i) : ∀ update ∈ (s.step i).updates, ¬ update.1 < update.2 := by
  cases i with
  | beginCalled input =>
    exact (updates_clearRetention (s := s) input.threadId).symm ▸ h
  | updated setup threadId update => exact updates_modify _ h hi
  | finishCalled setup threadId outcome =>
    have hmodify := updates_modify (fun tracked ↦ ⟨tracked.snapshot.finish outcome, none⟩) h hi
    simp only [step, finish]
    split
    · exact (updates_clearRetention (s := s.modify setup threadId _) threadId).symm ▸ hmodify
    · exact hmodify
  | retentionElapsed i =>
    simp only [step]
    split
    · exact h
    · rw [updates_elapse]
      exact h
  | beginStored i | finishForked i =>
    simp only [step]
    split <;> exact h
  | subscribed | snapshotRead | changeDelivered | itemReceived => exact h

/-! ## Runs -/

/-- **Subscribers see one setup at a time and never step back, in every orderly run.** In each state
that such a run reaches, what a subscriber has received of one life of an entry has growing sequence
numbers; once nothing is left to be delivered, the last item is the present snapshot, or that there
is none; and no setup has removed the entry of a later setup, or changed its snapshot. -/
theorem oneSetupAtATime_of_orderly (inputs : List SetupStep)
    (h : EveryStep step Orderly {} inputs) : OneSetupAtATime (after inputs) := by
  have hstream : StreamInv (after inputs) :=
    h.foldl_invariant (fun _ _ hs hi ↦ hs.step hi) streamInv_init
  have hretention : RetentionInv (after inputs) :=
    h.foldl_invariant (fun _ _ hs hi ↦ hs.step hi) retentionInv_init
  have hupdates : ∀ update ∈ (after inputs).updates, ¬ update.1 < update.2 :=
    h.foldl_invariant (P := fun s ↦ ∀ update ∈ s.updates, ¬ update.1 < update.2)
      (fun _ _ hs hi ↦ updates_step hs hi) nofun
  exact ⟨fun _ hmem ↦ hstream.increasing hmem, fun _ hmem hsettled ↦ hstream.settled hmem hsettled,
    hretention.removals, hupdates⟩

instance (s : SetupTracker) (setup : ℕ) (threadId : ThreadId) :
    Decidable (s.NotLater setup threadId) :=
  inferInstanceAs (Decidable ((s.setups threadId).isSome → s.owner threadId ≤ setup))

instance (s : SetupTracker) (i : SetupStep) : Decidable (s.Orderly i) := by
  cases i <;> unfold Orderly <;> infer_instance

/-- The setup of a thread with an asynchronous script, from its start to its end. -/
def asyncSetup : List SetupStep :=
  [.subscribed "t", .snapshotRead 0,
    .beginCalled ⟨"t", some "work", some "main", [.checkout, .setupScript], none, "09:00"⟩,
    .beginStored 0, .changeDelivered 0, .itemReceived 0,
    .updated 0 "t" (.stageStatus .setupScript .running none "09:01"),
    .finishCalled 0 "t" ⟨.done, none, "09:02"⟩, .finishForked 0]

/-- The same thread is set up again. -/
def nextSetup : List SetupStep :=
  [.beginCalled ⟨"t", some "work", some "main", [.checkout, .setupScript], none, "09:03"⟩,
    .beginStored 0]

/-- The removal of the first setup is interrupted, and the subscriber ends at the second setup. -/
theorem oneSetupAtATime_of_orderly_twoSetups :
    let run := asyncSetup ++ nextSetup ++ [.changeDelivered 0, .changeDelivered 0,
      .changeDelivered 0, .itemReceived 0]
    OneSetupAtATime (after run) ∧
      (after run).subscribers.map (fun subscriber ↦
          (subscriber.received.map SetupSubscriber.sequenceOf, subscriber.position)) =
        [([0, 3], (after run).changes.length)] :=
  ⟨oneSetupAtATime_of_orderly _ (by decide +kernel), by decide +kernel⟩

/-- The script of the first setup ends when the second has started, and is recorded as that of the
second, whose script has not run. -/
theorem not_oneSetupAtATime_runs : ¬ ∀ inputs : List SetupStep, OneSetupAtATime (after inputs) :=
  fun h ↦ (h (asyncSetup ++ nextSetup ++
    [.updated 0 "t" (.stageStatus .setupScript .done none "09:04")])).updates (0, 1)
      (by decide +kernel) (by decide)

end SetupTracker

end Awen.Project
