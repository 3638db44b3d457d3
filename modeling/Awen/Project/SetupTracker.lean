import Mathlib.Logic.Function.Basic
import Awen.Library.Runs
import Awen.Project.WorktreeSetup

/-!
# The tracker of worktree setups

The tracker keeps one entry for each thread, publishes the entry's snapshot whenever it changes, and
removes the entry some time after its setup has ended. A `SetupStep` is what runs between two points
at which a fiber may be suspended: `begin` and `finish` interrupt the removal that is registered for
the thread and wait for it, a subscriber reads its first snapshot after it has subscribed, and each
change reaches it on its own.

All calls name a thread. On behalf of which setup a call is made, the tracker does not know; a
`SetupStep` says it, and `updates` and `removals` keep it together with the setup whose entry was in
place.
-/

namespace Awen.Project

open Orchestration (ThreadId)

structure TrackedSetup where
  snapshot : WorktreeSetupSnapshot
  fiber : Option ℕ

/-- A snapshot, with the life of the entry that it is of. -/
structure PublishedSetup where
  snapshot : WorktreeSetupSnapshot
  life : ℕ

/-- A removal that waits for the retention to elapse, and the setup whose end has scheduled it. -/
structure RetentionFiber where
  id : ℕ
  threadId : ThreadId
  setup : ℕ

/-- A subscriber with its mailbox of one slot. `offered` is what has been put into the mailbox. -/
structure SetupSubscriber where
  threadId : ThreadId
  /-- How many of the changes its subscription has gone past. -/
  position : ℕ
  /-- There is none until it has read its first snapshot. -/
  lastSequence : Option ℤ := none
  mailbox : Option (Option PublishedSetup) := none
  received : List (Option PublishedSetup) := []
  offered : List (Option PublishedSetup) := []

/-- **The tracker.** The last five fields are what has happened, which it does not keep itself. -/
structure SetupTracker where
  setups : ThreadId → Option TrackedSetup := fun _ ↦ none
  lastSequenceByThread : ThreadId → Option ℕ := fun _ ↦ none
  retentionFibers : ThreadId → Option ℕ := fun _ ↦ none
  changes : List (ThreadId × Option PublishedSetup) := []
  /-- The removals that have not been interrupted. -/
  fibers : List RetentionFiber := []
  nextFiber : ℕ := 0
  /-- The calls of `begin` that wait for an interruption. -/
  beginning : List (ℕ × SetupInput) := []
  /-- The calls of `finish` that wait for an interruption. -/
  finishing : List (ℕ × ThreadId) := []
  subscribers : List SetupSubscriber := []
  begun : ℕ := 0
  /-- The setup whose entry was the last in place. -/
  owner : ThreadId → ℕ := fun _ ↦ 0
  /-- How many lives of an entry are over. -/
  lives : ThreadId → ℕ := fun _ ↦ 0
  /-- The setups on whose behalf a snapshot was changed, each with the setup whose snapshot it
  was. -/
  updates : List (ℕ × ℕ) := []
  /-- The setups whose end removed an entry, each with the setup whose entry it was. -/
  removals : List (ℕ × ℕ) := []

/-- What happens next. The setups are numbered as `begin` is called. -/
inductive SetupStep
  | beginCalled (input : SetupInput)
  | beginStored (i : ℕ)
  | updated (setup : ℕ) (threadId : ThreadId) (update : SetupUpdate)
  | finishCalled (setup : ℕ) (threadId : ThreadId) (outcome : SetupOutcome)
  | finishForked (i : ℕ)
  | retentionElapsed (i : ℕ)
  | subscribed (threadId : ThreadId)
  | snapshotRead (i : ℕ)
  | changeDelivered (i : ℕ)
  | itemReceived (i : ℕ)

/-! ## Subscribers -/

namespace SetupSubscriber

def offer (subscriber : SetupSubscriber) (item : Option PublishedSetup) : SetupSubscriber :=
  { subscriber with mailbox := some item, offered := subscriber.offered ++ [item] }

/-- The sequence number of an item; `-1` where there is no snapshot. -/
def sequenceOf (item : Option PublishedSetup) : ℤ :=
  item.elim (-1) fun published ↦ published.snapshot.sequence

/-- The subscriber reads its first snapshot. -/
def start (subscriber : SetupSubscriber) (initial : Option PublishedSetup) : SetupSubscriber :=
  match subscriber.lastSequence with
  | none => { subscriber with lastSequence := some (sequenceOf initial) }.offer initial
  | some _ => subscriber

/-- What a subscriber does with a change of its thread. -/
def accept (subscriber : SetupSubscriber) (lastSequence : ℤ) (item : Option PublishedSetup) :
    SetupSubscriber :=
  if item.isSome ∧ sequenceOf item ≤ lastSequence then subscriber
  else { subscriber with lastSequence := some (sequenceOf item) }.offer item

/-- The next change reaches a subscriber that has read its first snapshot. -/
def deliver (subscriber : SetupSubscriber) (changes : List (ThreadId × Option PublishedSetup)) :
    SetupSubscriber :=
  match subscriber.lastSequence, changes[subscriber.position]? with
  | some lastSequence, some change =>
    let subscriber := { subscriber with position := subscriber.position + 1 }
    if change.1 = subscriber.threadId then subscriber.accept lastSequence change.2 else subscriber
  | _, _ => subscriber

/-- The client takes what is in the mailbox. -/
def receive (subscriber : SetupSubscriber) : SetupSubscriber :=
  { subscriber with
    mailbox := none
    received := subscriber.received ++ subscriber.mailbox.toList }

end SetupSubscriber

/-! ## The tracker's steps -/

namespace SetupTracker

/-- The snapshot of a thread, as `get` reads it. -/
def current (s : SetupTracker) (threadId : ThreadId) : Option PublishedSetup :=
  (s.setups threadId).map fun tracked ↦ ⟨tracked.snapshot, s.lives threadId⟩

def publish (s : SetupTracker) (threadId : ThreadId) (snapshot : Option WorktreeSetupSnapshot) :
    SetupTracker :=
  { s with changes := s.changes ++ [(threadId, snapshot.map (⟨·, s.lives threadId⟩))] }

def modify (s : SetupTracker) (setup : ℕ) (threadId : ThreadId)
    (mutate : TrackedSetup → TrackedSetup) : SetupTracker :=
  match s.setups threadId with
  | none => s
  | some existing =>
    let nextTracked := mutate existing
    let nextSnapshot := { nextTracked.snapshot with sequence := existing.snapshot.sequence + 1 }
    publish
      { s with
        setups :=
          Function.update s.setups threadId (some { nextTracked with snapshot := nextSnapshot })
        lastSequenceByThread :=
          Function.update s.lastSequenceByThread threadId (some nextSnapshot.sequence)
        updates := s.updates ++ [(setup, s.owner threadId)] }
      threadId (some nextSnapshot)

/-- The removal that is registered for a thread is interrupted. -/
def clearRetention (s : SetupTracker) (threadId : ThreadId) : SetupTracker :=
  match s.retentionFibers threadId with
  | none => s
  | some id =>
    { s with
      retentionFibers := Function.update s.retentionFibers threadId none
      fibers := s.fibers.filter (·.id != id) }

def remove (s : SetupTracker) (setup : ℕ) (threadId : ThreadId) : SetupTracker :=
  let s' :=
    if (s.setups threadId).isSome then
      { s with
        setups := Function.update s.setups threadId none
        lives := Function.update s.lives threadId (s.lives threadId + 1)
        removals := s.removals ++ [(setup, s.owner threadId)] }
    else s
  { s'.publish threadId none with
    lastSequenceByThread := Function.update s.lastSequenceByThread threadId none }

/-- `begin` after the interruption. -/
def store (s : SetupTracker) (setup : ℕ) (input : SetupInput) : SetupTracker :=
  let snapshot := input.snapshot (((s.lastSequenceByThread input.threadId).map (· + 1)).getD 0)
  publish
    { s with
      lastSequenceByThread :=
        Function.update s.lastSequenceByThread input.threadId (some snapshot.sequence)
      setups := Function.update s.setups input.threadId (some ⟨snapshot, input.fiber⟩)
      owner := Function.update s.owner input.threadId setup }
    input.threadId (some snapshot)

/-- `finish` up to the interruption. -/
def finish (s : SetupTracker) (setup : ℕ) (threadId : ThreadId) (outcome : SetupOutcome) :
    SetupTracker :=
  let s' := s.modify setup threadId fun tracked ↦ ⟨tracked.snapshot.finish outcome, none⟩
  if (s.setups threadId).isSome then
    { s'.clearRetention threadId with finishing := s.finishing ++ [(setup, threadId)] }
  else s'

/-- `finish` after the interruption. -/
def fork (s : SetupTracker) (setup : ℕ) (threadId : ThreadId) : SetupTracker :=
  { s with
    fibers := s.fibers ++ [⟨s.nextFiber, threadId, setup⟩]
    retentionFibers := Function.update s.retentionFibers threadId (some s.nextFiber)
    nextFiber := s.nextFiber + 1 }

/-- A removal whose time has come: it removes the entry, and its registration where that is its
own. -/
def elapse (s : SetupTracker) (fiber : RetentionFiber) : SetupTracker :=
  let s' := s.remove fiber.setup fiber.threadId
  if s.retentionFibers fiber.threadId = some fiber.id then
    { s' with retentionFibers := Function.update s.retentionFibers fiber.threadId none }
  else s'

def modifySubscriber (s : SetupTracker) (i : ℕ) (f : SetupSubscriber → SetupSubscriber) :
    SetupTracker :=
  { s with subscribers := s.subscribers.modify i f }

/-- **One step.** -/
def step (s : SetupTracker) : SetupStep → SetupTracker
  | .beginCalled input =>
    { s.clearRetention input.threadId with
      beginning := s.beginning ++ [(s.begun, input)]
      begun := s.begun + 1 }
  | .beginStored i =>
    match s.beginning[i]? with
    | none => s
    | some (setup, input) => store { s with beginning := s.beginning.eraseIdx i } setup input
  | .updated setup threadId update =>
    s.modify setup threadId fun tracked ↦
      { tracked with snapshot := update.mutate tracked.snapshot }
  | .finishCalled setup threadId outcome => s.finish setup threadId outcome
  | .finishForked i =>
    match s.finishing[i]? with
    | none => s
    | some (setup, threadId) =>
      fork { s with finishing := s.finishing.eraseIdx i } setup threadId
  | .retentionElapsed i =>
    match s.fibers[i]? with
    | none => s
    | some fiber => elapse { s with fibers := s.fibers.eraseIdx i } fiber
  | .subscribed threadId =>
    { s with subscribers := s.subscribers ++ [{ threadId, position := s.changes.length }] }
  | .snapshotRead i =>
    s.modifySubscriber i fun subscriber ↦ subscriber.start (s.current subscriber.threadId)
  | .changeDelivered i => s.modifySubscriber i (·.deliver s.changes)
  | .itemReceived i => s.modifySubscriber i (·.receive)

/-- The state after a run. -/
def after (inputs : List SetupStep) : SetupTracker := inputs.foldl step {}

/-! ## What is at stake -/

/-- Nothing is left to be delivered to a subscriber, and nothing lies in its mailbox. -/
def Settled (s : SetupTracker) (subscriber : SetupSubscriber) : Prop :=
  subscriber.lastSequence.isSome ∧ subscriber.position = s.changes.length ∧
    subscriber.mailbox = none

/-- In one life, sequence numbers grow. -/
def Grows (a b : Option PublishedSetup) : Prop :=
  ∀ x ∈ a, ∀ y ∈ b, x.life = y.life → x.snapshot.sequence < y.snapshot.sequence

/-- **Subscribers see one setup at a time and never step back.** -/
structure OneSetupAtATime (s : SetupTracker) : Prop where
  increasing : ∀ subscriber ∈ s.subscribers, subscriber.received.Pairwise Grows
  settled : ∀ subscriber ∈ s.subscribers, s.Settled subscriber →
    subscriber.received.getLast? = some (s.current subscriber.threadId)
  removals : ∀ removal ∈ s.removals, ¬ removal.1 < removal.2
  updates : ∀ update ∈ s.updates, ¬ update.1 < update.2

/-- The entry in place is of no later setup. -/
def NotLater (s : SetupTracker) (setup : ℕ) (threadId : ThreadId) : Prop :=
  (s.setups threadId).isSome → s.owner threadId ≤ setup

/-- **The condition on a step.** A setup's update or end does not come after a later setup has
started; no removal is registered while `begin` or `finish` waits for the interruption of another;
and no removal is published between a subscription and its first snapshot. -/
def Orderly (s : SetupTracker) : SetupStep → Prop
  | .updated setup threadId _ | .finishCalled setup threadId _ => s.NotLater setup threadId
  | .beginStored i => ∀ call ∈ s.beginning[i]?, s.retentionFibers call.2.threadId = none
  | .finishForked i => ∀ call ∈ s.finishing[i]?,
    s.retentionFibers call.2 = none ∧ s.NotLater call.1 call.2
  | .snapshotRead i => ∀ subscriber ∈ s.subscribers[i]?,
    ∀ change ∈ s.changes.drop subscriber.position,
      change.1 = subscriber.threadId → change.2.isSome
  | _ => True

end SetupTracker

end Awen.Project
