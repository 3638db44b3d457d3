import Awen.Library.VersionLog
import Awen.Project.SetupTracker

/-!
# What subscribers of a worktree setup see

The changes of a thread are a log of versions that ends at the present snapshot, since each step
that changes the entry publishes it with the next sequence number (`Publishes`). What a subscriber
has been offered, followed by what is still to come, is such a log as well: when it reads its first
snapshot, the changes that are on their way are older than that snapshot, and it drops them
(`Reads`).
-/

namespace Awen.Project

open Orchestration (ThreadId)

/-- The items of a thread's changes, in order. -/
def itemsOf (threadId : ThreadId) (changes : List (ThreadId × Option PublishedSetup)) :
    List (Option PublishedSetup) :=
  changes.filterMap fun change ↦ if change.1 = threadId then some change.2 else none

variable {threadId : ThreadId} {changes : List (ThreadId × Option PublishedSetup)}

theorem itemsOf_append (later : List (ThreadId × Option PublishedSetup)) :
    itemsOf threadId (changes ++ later) = itemsOf threadId changes ++ itemsOf threadId later :=
  List.filterMap_append

theorem itemsOf_cons_self (item : Option PublishedSetup) :
    itemsOf threadId ((threadId, item) :: changes) = item :: itemsOf threadId changes :=
  List.filterMap_cons_some (if_pos rfl)

theorem itemsOf_cons_of_ne {change : ThreadId × Option PublishedSetup} (h : change.1 ≠ threadId) :
    itemsOf threadId (change :: changes) = itemsOf threadId changes :=
  List.filterMap_cons_none (if_neg h)

theorem mem_itemsOf {item : Option PublishedSetup} :
    item ∈ itemsOf threadId changes ↔ (threadId, item) ∈ changes := by
  rw [itemsOf, List.mem_filterMap]
  constructor
  · rintro ⟨⟨t, i⟩, hmem, h⟩
    obtain ⟨rfl, hitem⟩ := Option.ite_none_right_eq_some.mp h
    exact Option.some.inj hitem ▸ hmem
  · exact fun h ↦ ⟨_, h, if_pos rfl⟩

/-- The items are the log of an entry with this present snapshot. -/
abbrev InOrder (log : List (Option PublishedSetup)) (present : Option PublishedSetup) (lives : ℕ) :
    Prop :=
  VersionLog.Follows PublishedSetup.life (·.snapshot.sequence) log present lives

namespace SetupTracker

variable {s s' : SetupTracker}

/-! ## What a change of an entry publishes -/

/-- A step changes the entry of a thread and publishes it. -/
structure Publishes (s s' : SetupTracker) (threadId : ThreadId) : Prop where
  changes : s'.changes = s.changes ++ [(threadId, s'.current threadId)]
  subscribers : s'.subscribers = s.subscribers
  setups : ∀ t, t ≠ threadId → s'.setups t = s.setups t
  lives : ∀ t, t ≠ threadId → s'.lives t = s.lives t
  lastSequences : ∀ t, t ≠ threadId → s'.lastSequenceByThread t = s.lastSequenceByThread t
  lastSequence : s'.lastSequenceByThread threadId =
    (s'.setups threadId).map (·.snapshot.sequence)
  advances : ∀ log, InOrder log (s.current threadId) (s.lives threadId) →
    InOrder (log ++ [s'.current threadId]) (s'.current threadId) (s'.lives threadId)

theorem Publishes.current_of_ne (h : Publishes s s' threadId) {t : ThreadId} (ht : t ≠ threadId) :
    s'.current t = s.current t := by
  rw [current, current, h.setups t ht, h.lives t ht]

theorem modify_of_none {setup : ℕ} {mutate : TrackedSetup → TrackedSetup}
    (h : s.setups threadId = none) : s.modify setup threadId mutate = s := by
  rw [modify, h]

theorem publishes_modify {setup : ℕ} {mutate : TrackedSetup → TrackedSetup}
    (h : (s.setups threadId).isSome) :
    Publishes s (s.modify setup threadId mutate) threadId := by
  obtain ⟨existing, hexisting⟩ := Option.isSome_iff_exists.mp h
  simp only [modify, hexisting]
  refine ⟨by simp [publish, current], rfl, fun t ht ↦ Function.update_of_ne ht _ _, fun _ _ ↦ rfl,
    fun t ht ↦ Function.update_of_ne ht _ _, by simp [publish], fun log hlog ↦ ?_⟩
  simp only [publish, current, Function.update_self, Option.map_some]
  refine hlog.concat_some rfl fun x hx ↦ ?_
  obtain ⟨tracked, htracked, rfl⟩ := Option.mem_map.mp hx
  obtain rfl := Option.some.inj (hexisting.symm.trans htracked)
  exact Nat.lt_succ_self _

theorem publishes_store {setup : ℕ} {input : SetupInput}
    (h : s.lastSequenceByThread input.threadId =
      (s.setups input.threadId).map (·.snapshot.sequence)) :
    Publishes s (s.store setup input) input.threadId := by
  refine ⟨by simp [store, publish, current], rfl, fun t ht ↦ Function.update_of_ne ht _ _,
    fun _ _ ↦ rfl, fun t ht ↦ Function.update_of_ne ht _ _, by simp [store, publish],
    fun log hlog ↦ ?_⟩
  simp only [store, publish, current, Function.update_self, Option.map_some]
  refine hlog.concat_some rfl fun x hx ↦ ?_
  obtain ⟨tracked, htracked, rfl⟩ := Option.mem_map.mp hx
  rw [h, htracked]
  exact Nat.lt_succ_self _

theorem publishes_remove (setup : ℕ) (threadId : ThreadId) :
    Publishes s (s.remove setup threadId) threadId := by
  obtain hnone | ⟨existing, hexisting⟩ := (s.setups threadId).eq_none_or_eq_some
  · have hcurrent : s.current threadId = none := by rw [current, hnone]; rfl
    simp only [remove, hnone, Option.isSome_none, Bool.false_eq_true, if_false]
    refine ⟨by simp [publish, current, hnone], rfl, fun _ _ ↦ rfl, fun _ _ ↦ rfl,
      fun t ht ↦ Function.update_of_ne ht _ _, by simp [publish, hnone], fun log hlog ↦ ?_⟩
    have hnext := hlog.concat_none
    rw [hcurrent] at hnext
    simpa [publish, current, hnone] using hnext
  · have hcurrent : (s.current threadId).isSome = true := by rw [current, hexisting]; rfl
    simp only [remove, hexisting, Option.isSome_some, if_true]
    refine ⟨by simp [publish, current], rfl, fun t ht ↦ Function.update_of_ne ht _ _,
      fun t ht ↦ Function.update_of_ne ht _ _, fun t ht ↦ Function.update_of_ne ht _ _,
      by simp [publish], fun log hlog ↦ ?_⟩
    have hnext := hlog.concat_none
    rw [if_pos hcurrent] at hnext
    simpa [publish, current] using hnext

/-! ## What a subscriber has seen and will see -/

/-- What is on its way to a subscriber that has read its first snapshot: first items that it will
drop, then items that continue what it has been offered. -/
structure Reads (s : SetupTracker) (subscriber : SetupSubscriber) (lastSequence : ℤ)
    (stale fresh : List (Option PublishedSetup)) : Prop where
  upcoming : itemsOf subscriber.threadId (s.changes.drop subscriber.position) = stale ++ fresh
  stale : ∀ item ∈ stale, item.isSome ∧ SetupSubscriber.sequenceOf item ≤ lastSequence
  inOrder : InOrder (subscriber.offered ++ fresh) (s.current subscriber.threadId)
    (s.lives subscriber.threadId)
  last : subscriber.offered.getLast?.map SetupSubscriber.sequenceOf = some lastSequence

structure SubscriberInv (s : SetupTracker) (subscriber : SetupSubscriber) : Prop where
  position : subscriber.position ≤ s.changes.length
  kept : (subscriber.received ++ subscriber.mailbox.toList).Sublist subscriber.offered
  latest : (subscriber.received ++ subscriber.mailbox.toList).getLast? =
    subscriber.offered.getLast?
  unread : subscriber.lastSequence = none → subscriber.offered = []
  reads : ∀ lastSequence ∈ subscriber.lastSequence, ∃ stale fresh,
    s.Reads subscriber lastSequence stale fresh

structure StreamInv (s : SetupTracker) : Prop where
  lastSequence : ∀ t, s.lastSequenceByThread t = (s.setups t).map (·.snapshot.sequence)
  log : ∀ t, InOrder (itemsOf t s.changes) (s.current t) (s.lives t)
  subscribers : ∀ subscriber ∈ s.subscribers, s.SubscriberInv subscriber

variable {subscriber : SetupSubscriber} {lastSequence : ℤ}
  {stale fresh : List (Option PublishedSetup)}

/-- A change of another thread is nothing to a subscriber; one of its thread comes last. -/
theorem Reads.publishes (h : s.Reads subscriber lastSequence stale fresh)
    (hposition : subscriber.position ≤ s.changes.length) (hs : Publishes s s' threadId) :
    ∃ fresh', s'.Reads subscriber lastSequence stale fresh' := by
  have hdrop : s'.changes.drop subscriber.position =
      s.changes.drop subscriber.position ++ [(threadId, s'.current threadId)] := by
    rw [hs.changes, List.drop_append_of_le_length hposition]
  by_cases ht : subscriber.threadId = threadId
  · refine ⟨fresh ++ [s'.current threadId], ?_, h.stale, ?_, h.last⟩
    · rw [hdrop, itemsOf_append, h.upcoming, ← ht, itemsOf_cons_self, List.append_assoc]
      rfl
    · rw [ht, ← List.append_assoc]
      exact hs.advances _ (ht ▸ h.inOrder)
  · refine ⟨fresh, ?_, h.stale, ?_, h.last⟩
    · rw [hdrop, itemsOf_append, itemsOf_cons_of_ne (Ne.symm ht), h.upcoming]
      exact List.append_nil _
    · rw [hs.current_of_ne ht, hs.lives _ ht]
      exact h.inOrder

theorem SubscriberInv.publishes (h : s.SubscriberInv subscriber) (hs : Publishes s s' threadId) :
    s'.SubscriberInv subscriber where
  position := by
    rw [hs.changes, List.length_append]
    exact Nat.le_add_right_of_le h.position
  kept := h.kept
  latest := h.latest
  unread := h.unread
  reads lastSequence hlast := by
    obtain ⟨stale, fresh, hreads⟩ := h.reads lastSequence hlast
    exact ⟨stale, hreads.publishes h.position hs⟩

/-- A published change of an entry keeps what subscribers see in order. -/
theorem StreamInv.publishes (h : s.StreamInv) (hs : Publishes s s' threadId) : s'.StreamInv where
  lastSequence t := by
    by_cases ht : t = threadId
    · rw [ht, hs.lastSequence]
    · rw [hs.lastSequences t ht, hs.setups t ht]
      exact h.lastSequence t
  log t := by
    rw [hs.changes, itemsOf_append]
    by_cases ht : t = threadId
    · rw [ht, itemsOf_cons_self]
      exact hs.advances _ (h.log threadId)
    · rw [itemsOf_cons_of_ne (Ne.symm ht), hs.current_of_ne ht, hs.lives t ht]
      exact (List.append_nil _).symm ▸ h.log t
  subscribers subscriber hmem := (h.subscribers subscriber (hs.subscribers ▸ hmem)).publishes hs

/-! ## The steps of a subscriber -/

/-- An item goes into the mailbox, and what was there is dropped. -/
theorem kept_offer {received offered : List (Option PublishedSetup)}
    {mailbox : Option (Option PublishedSetup)} (h : (received ++ mailbox.toList).Sublist offered)
    (item : Option PublishedSetup) : (received ++ [item]).Sublist (offered ++ [item]) :=
  ((List.sublist_append_left received _).trans h).append (List.Sublist.refl _)

theorem SubscriberInv.start (h : s.SubscriberInv subscriber)
    (hlog : InOrder (itemsOf subscriber.threadId s.changes) (s.current subscriber.threadId)
      (s.lives subscriber.threadId))
    (hchanges : ∀ change ∈ s.changes.drop subscriber.position,
      change.1 = subscriber.threadId → change.2.isSome) :
    s.SubscriberInv (subscriber.start (s.current subscriber.threadId)) := by
  obtain hnone | ⟨last, hlast⟩ := subscriber.lastSequence.eq_none_or_eq_some
  swap
  · rwa [SetupSubscriber.start, hlast]
  have hoffered := h.unread hnone
  have hpresent : ∀ x ∈ s.current subscriber.threadId, x.life = s.lives subscriber.threadId :=
    hlog.presentLife
  rw [SetupSubscriber.start, hnone]
  refine ⟨h.position, kept_offer h.kept _, by simp [SetupSubscriber.offer], nofun, ?_⟩
  rintro _ ⟨⟩
  refine ⟨itemsOf subscriber.threadId (s.changes.drop subscriber.position), [],
    (List.append_nil _).symm, fun item hitem ↦ ?_, ?_, ?_⟩
  · -- what was published before the read is no newer than what is read
    have hsome : none ∉ itemsOf subscriber.threadId (s.changes.drop subscriber.position) :=
      fun hmem ↦ absurd (hchanges _ (mem_itemsOf.mp hmem) rfl) nofun
    have hsuffix : itemsOf subscriber.threadId (s.changes.drop subscriber.position) <:+
        itemsOf subscriber.threadId s.changes :=
      (List.drop_suffix _ _).filterMap _
    obtain rfl | ⟨published, rfl⟩ := item.eq_none_or_eq_some
    · exact absurd hitem hsome
    obtain ⟨p, hp, hle⟩ := (hlog.suffix hsuffix (List.ne_nil_of_mem hitem)).version_le hsome hitem
    rw [hp]
    exact ⟨rfl, Int.ofNat_le.mpr hle⟩
  · simp only [SetupSubscriber.offer, hoffered, List.nil_append, List.append_nil]
    exact VersionLog.follows_singleton hpresent
  · simp [SetupSubscriber.offer]

/-- The next item of its thread reaches a subscriber. -/
theorem SubscriberInv.accept (h : s.SubscriberInv subscriber)
    (hlast : subscriber.lastSequence = some lastSequence) {item : Option PublishedSetup}
    {rest : List (Option PublishedSetup)} {position : ℕ} (hposition : position ≤ s.changes.length)
    (hrest : itemsOf subscriber.threadId (s.changes.drop position) = rest)
    (hreads : s.Reads subscriber lastSequence stale fresh) (hnext : stale ++ fresh = item :: rest) :
    s.SubscriberInv ({ subscriber with position }.accept lastSequence item) := by
  obtain _ | ⟨head, stale⟩ := stale
  · -- nothing that is on its way is old, so the item continues what was offered
    obtain rfl : fresh = item :: rest := hnext
    obtain ⟨before, final, hoffered⟩ : ∃ before final, subscriber.offered = before ++ [final] := by
      obtain hnil | hconcat := List.eq_nil_or_concat' subscriber.offered
      · exact absurd hreads.last (by simp [hnil])
      · exact hconcat
    have hfinal : SetupSubscriber.sequenceOf final = lastSequence := by
      simpa [hoffered] using hreads.last
    have hnew : ¬(item.isSome ∧ SetupSubscriber.sequenceOf item ≤ lastSequence) := by
      rintro ⟨hsome, hle⟩
      obtain ⟨y, rfl⟩ := Option.isSome_iff_exists.mp hsome
      rw [← hfinal] at hle
      obtain rfl | ⟨x, rfl⟩ := final.eq_none_or_eq_some
      · have : (y.snapshot.sequence : ℤ) ≤ -1 := hle
        omega
      · have horder := hreads.inOrder
        rw [hoffered, List.append_assoc] at horder
        exact absurd (Int.ofNat_le.mp hle) (Nat.not_le_of_lt horder.version_lt)
    rw [SetupSubscriber.accept, if_neg hnew]
    refine ⟨hposition, kept_offer h.kept _, by simp [SetupSubscriber.offer], nofun, ?_⟩
    rintro _ ⟨⟩
    refine ⟨[], rest, hrest, fun _ hmem ↦ absurd hmem List.not_mem_nil, ?_, ?_⟩
    · simpa [SetupSubscriber.offer] using hreads.inOrder
    · simp [SetupSubscriber.offer]
  · obtain ⟨rfl, rfl⟩ := List.cons.inj hnext
    rw [SetupSubscriber.accept, if_pos (hreads.stale head List.mem_cons_self)]
    refine ⟨hposition, h.kept, h.latest, h.unread, fun last hlast' ↦ ?_⟩
    obtain rfl := Option.some.inj (hlast.symm.trans hlast')
    exact ⟨stale, fresh, hrest, fun item hmem ↦ hreads.stale item (List.mem_cons_of_mem _ hmem),
      hreads.inOrder, hreads.last⟩

theorem SubscriberInv.deliver (h : s.SubscriberInv subscriber) :
    s.SubscriberInv (subscriber.deliver s.changes) := by
  unfold SetupSubscriber.deliver
  split
  swap
  · exact h
  rename_i last change hlast hchange
  obtain ⟨hlt, rfl⟩ := List.getElem?_eq_some_iff.mp hchange
  obtain ⟨stale, fresh, hreads⟩ := h.reads last hlast
  have hupcoming := hreads.upcoming
  rw [List.drop_eq_getElem_cons hlt] at hupcoming
  dsimp only
  split
  · rename_i ht
    rw [← Prod.mk.eta (p := s.changes[subscriber.position]), ht, itemsOf_cons_self] at hupcoming
    exact h.accept hlast hlt rfl hreads hupcoming.symm
  · rename_i ht
    rw [itemsOf_cons_of_ne ht] at hupcoming
    refine ⟨hlt, h.kept, h.latest, h.unread, fun last' hlast' ↦ ?_⟩
    obtain rfl := Option.some.inj (hlast.symm.trans hlast')
    exact ⟨stale, fresh, hupcoming, hreads.stale, hreads.inOrder, hreads.last⟩

theorem SubscriberInv.receive (h : s.SubscriberInv subscriber) :
    s.SubscriberInv subscriber.receive where
  position := h.position
  kept := (List.append_nil _).symm ▸ h.kept
  latest := (List.append_nil _).symm ▸ h.latest
  unread := h.unread
  reads last hlast := by
    obtain ⟨stale, fresh, hreads⟩ := h.reads last hlast
    exact ⟨stale, fresh, hreads.upcoming, hreads.stale, hreads.inOrder, hreads.last⟩

/-- Only what is published and what is in place matters to a subscriber. -/
theorem SubscriberInv.of_eq (h : s.SubscriberInv subscriber) (hchanges : s'.changes = s.changes)
    (hsetups : s'.setups = s.setups) (hlives : s'.lives = s.lives) :
    s'.SubscriberInv subscriber where
  position := hchanges ▸ h.position
  kept := h.kept
  latest := h.latest
  unread := h.unread
  reads last hlast := by
    obtain ⟨stale, fresh, hreads⟩ := h.reads last hlast
    refine ⟨stale, fresh, hchanges ▸ hreads.upcoming, hreads.stale, ?_, hreads.last⟩
    rw [current, hsetups, hlives]
    exact hreads.inOrder

theorem StreamInv.of_eq (h : s.StreamInv) (hchanges : s'.changes = s.changes)
    (hsetups : s'.setups = s.setups) (hlives : s'.lives = s.lives)
    (hlast : s'.lastSequenceByThread = s.lastSequenceByThread)
    (hsubscribers : s'.subscribers = s.subscribers) : s'.StreamInv where
  lastSequence t := by
    rw [hlast, hsetups]
    exact h.lastSequence t
  log t := by
    rw [hchanges, current, hsetups, hlives]
    exact h.log t
  subscribers subscriber hmem :=
    (h.subscribers subscriber (hsubscribers ▸ hmem)).of_eq hchanges hsetups hlives

/-- A step of one subscriber. -/
theorem StreamInv.modifySubscriber (h : s.StreamInv) {i : ℕ}
    {f : SetupSubscriber → SetupSubscriber}
    (hf : ∀ subscriber ∈ s.subscribers[i]?, s.SubscriberInv subscriber →
      s.SubscriberInv (f subscriber)) : (s.modifySubscriber i f).StreamInv where
  lastSequence := h.lastSequence
  log := h.log
  subscribers subscriber hmem := by
    obtain ⟨j, hj⟩ := List.mem_iff_getElem?.mp hmem
    rw [SetupTracker.modifySubscriber, List.getElem?_modify] at hj
    obtain ⟨old, hold, rfl⟩ := Option.map_eq_some_iff.mp hj
    have hinv := h.subscribers old (List.mem_of_getElem? hold)
    have hnew : s.SubscriberInv (if i = j then f old else old) := by
      split
      · exact hf old (by simp_all) hinv
      · exact hinv
    exact hnew.of_eq rfl rfl rfl

/-! ## The order of what is published -/

theorem streamInv_init : StreamInv {} where
  lastSequence _ := rfl
  log _ := VersionLog.follows_nil
  subscribers _ h := absurd h List.not_mem_nil

theorem StreamInv.modify (h : s.StreamInv) (setup : ℕ) (threadId : ThreadId)
    (mutate : TrackedSetup → TrackedSetup) : (s.modify setup threadId mutate).StreamInv := by
  obtain hnone | ⟨existing, hexisting⟩ := (s.setups threadId).eq_none_or_eq_some
  · rwa [modify_of_none hnone]
  · exact h.publishes (publishes_modify (by rw [hexisting]; rfl))

theorem StreamInv.clearRetention (h : s.StreamInv) (threadId : ThreadId) :
    (s.clearRetention threadId).StreamInv := by
  unfold SetupTracker.clearRetention
  split
  · exact h
  · exact h.of_eq rfl rfl rfl rfl rfl

theorem StreamInv.elapse (h : s.StreamInv) (fiber : RetentionFiber) :
    (s.elapse fiber).StreamInv := by
  have hremove := h.publishes (publishes_remove fiber.setup fiber.threadId)
  unfold SetupTracker.elapse
  split
  · exact hremove.of_eq rfl rfl rfl rfl rfl
  · exact hremove

theorem StreamInv.subscribe (h : s.StreamInv) (threadId : ThreadId) :
    (s.step (.subscribed threadId)).StreamInv where
  lastSequence := h.lastSequence
  log := h.log
  subscribers subscriber hmem := by
    rcases List.mem_append.mp hmem with hold | hnew
    · exact (h.subscribers subscriber hold).of_eq rfl rfl rfl
    · obtain rfl := List.mem_singleton.mp hnew
      exact ⟨le_rfl, List.Sublist.refl _, rfl, fun _ ↦ rfl, nofun⟩

/-- **Every step keeps what subscribers see in order.** -/
theorem StreamInv.step (h : s.StreamInv) {i : SetupStep} (hi : s.Orderly i) :
    (s.step i).StreamInv := by
  cases i with
  | beginCalled input => exact (h.clearRetention input.threadId).of_eq rfl rfl rfl rfl rfl
  | beginStored i =>
    simp only [SetupTracker.step]
    split
    · exact h
    · rename_i setup input _
      have h' : StreamInv { s with beginning := s.beginning.eraseIdx i } :=
        h.of_eq rfl rfl rfl rfl rfl
      exact h'.publishes (publishes_store (h.lastSequence input.threadId))
  | updated setup threadId update => exact h.modify _ _ _
  | finishCalled setup threadId outcome =>
    simp only [SetupTracker.step, finish]
    split
    · exact ((h.modify _ _ _).clearRetention threadId).of_eq rfl rfl rfl rfl rfl
    · exact h.modify _ _ _
  | finishForked i =>
    simp only [SetupTracker.step]
    split
    · exact h
    · exact h.of_eq rfl rfl rfl rfl rfl
  | retentionElapsed i =>
    simp only [SetupTracker.step]
    split
    · exact h
    · rename_i fiber _
      have h' : StreamInv { s with fibers := s.fibers.eraseIdx i } := h.of_eq rfl rfl rfl rfl rfl
      exact h'.elapse fiber
  | subscribed threadId => exact h.subscribe threadId
  | snapshotRead i =>
    exact h.modifySubscriber fun subscriber hmem hinv ↦
      hinv.start (h.log subscriber.threadId) (hi subscriber hmem)
  | changeDelivered i => exact h.modifySubscriber fun _ _ hinv ↦ hinv.deliver
  | itemReceived i => exact h.modifySubscriber fun _ _ hinv ↦ hinv.receive

/-! ## What a subscriber has received -/

theorem StreamInv.increasing (h : s.StreamInv) (hmem : subscriber ∈ s.subscribers) :
    subscriber.received.Pairwise Grows := by
  have hinv := h.subscribers subscriber hmem
  have hoffered : subscriber.offered.Pairwise Grows := by
    obtain hnone | ⟨last, hlast⟩ := subscriber.lastSequence.eq_none_or_eq_some
    · exact hinv.unread hnone ▸ List.Pairwise.nil
    · obtain ⟨stale, fresh, hreads⟩ := hinv.reads last hlast
      exact ((List.pairwise_append.mp hreads.inOrder.ordered).1).imp
        fun hab x hx y hy ↦ (hab x hx y hy).2
  exact hoffered.sublist ((List.sublist_append_left _ _).trans hinv.kept)

theorem StreamInv.settled (h : s.StreamInv) (hmem : subscriber ∈ s.subscribers)
    (hsettled : s.Settled subscriber) :
    subscriber.received.getLast? = some (s.current subscriber.threadId) := by
  obtain ⟨hstarted, hposition, hmailbox⟩ := hsettled
  have hinv := h.subscribers subscriber hmem
  obtain ⟨last, hlast⟩ := Option.isSome_iff_exists.mp hstarted
  obtain ⟨stale, fresh, hreads⟩ := hinv.reads last hlast
  have hupcoming := hreads.upcoming
  rw [hposition, List.drop_length] at hupcoming
  obtain rfl : fresh = [] := (List.append_eq_nil_iff.mp hupcoming.symm).2
  have horder := hreads.inOrder
  rw [List.append_nil] at horder
  have hlatest := hinv.latest
  rw [hmailbox, Option.toList_none, List.append_nil] at hlatest
  obtain ⟨final, hfinal, -⟩ := Option.map_eq_some_iff.mp hreads.last
  rw [hlatest, hfinal, horder.eq_present hfinal]

end SetupTracker

end Awen.Project
