import Awen.Library.Thinning
import Awen.Orchestration.Events
import Awen.Orchestration.OpenRequests
import Awen.Orchestration.ThreadRuns

/-!
# The live event coalescer

Between the engine and a subscriber of a thread stands a buffer that holds back tool updates for a
short while and drops those that a later update of the same call supersedes. `LiveCoalescer` is its
state, and `CoalescerStep` what happens to it: a batch of inputs is offered, a window times out, the
subscriber pulls the next items. A budget bounds what is held for the subscriber; when an item does
not fit any more, the stream fails and the subscriber has to resume.

What clients need of an activity's payload is a question of its own. `ActivityPayloadProjection`
leaves it open up to what the coalescer reads: the id of the tool call.
-/

namespace Awen.Orchestration

/-! ## Tool updates -/

/-- A string, trimmed, if there is anything left of it. -/
def asTrimmedString (value : Option Json) : Option String := trimmedNonEmpty? value

/-- The tool call that a payload is about. -/
def payloadToolCallId (payload : Json) : Option String :=
  (asTrimmedString (payload.field "toolCallId")).or
    (asTrimmedString ((payload.field "data").bind (Json.field "toolCallId")))

/-- The projection of activity payloads for clients: it copies the ids of tool calls. -/
structure ActivityPayloadProjection where
  project : Json → Json
  payloadToolCallId_project : ∀ payload, payloadToolCallId (project payload) =
    payloadToolCallId payload

/-- The activity that an event appends. -/
def OrchestrationEvent.activity? (event : OrchestrationEvent) :
    Option OrchestrationThreadActivity :=
  match event.payload with
  | .thread _ (.activityAppended activity) => some activity
  | _ => none

def projectActivityEvent (projection : ActivityPayloadProjection) (event : OrchestrationEvent) :
    OrchestrationEvent :=
  match event.payload with
  | .thread threadId (.activityAppended activity) =>
    { event with payload := .thread threadId (.activityAppended
        { activity with payload := projection.project activity.payload }) }
  | _ => event

def isToolUpdated (event : OrchestrationEvent) : Bool :=
  event.activity?.any (·.kind = "tool.updated")

def stableToolCallIdentity (event : OrchestrationEvent) : Option String :=
  event.activity?.bind fun activity ↦ payloadToolCallId activity.payload

/-- The tool call of an event and the turn it belongs to, as one key; `none` for anonymous calls. -/
def toolCallKey (event : OrchestrationEvent) : Option String :=
  (stableToolCallIdentity event).map fun identity ↦
    ((event.activity?.bind (·.turnId)).getD "") ++ "\x00" ++ identity

/-- The latest updates of a run, found from its end. The second component are the keys seen. -/
def latestUpdates (pendingUpdates : List OrchestrationEvent) :
    List OrchestrationEvent × List String :=
  pendingUpdates.foldr (fun event (latest, seen) ↦
    match toolCallKey event with
    | some key => if key ∈ seen then (latest, seen) else (event :: latest, key :: seen)
    | none => (event :: latest, seen)) ([], [])

def flushUpdates (pendingUpdates : List OrchestrationEvent) : List OrchestrationEvent :=
  (latestUpdates pendingUpdates).1

/-- One event: an update is pending, any other event flushes the updates before it. -/
def coalesceEvent (survivors pendingUpdates : List OrchestrationEvent)
    (event : OrchestrationEvent) : List OrchestrationEvent × List OrchestrationEvent :=
  if isToolUpdated event then (survivors, pendingUpdates ++ [event])
  else (survivors ++ flushUpdates pendingUpdates ++ [event], [])

/-- Keep the latest update of each call in every run of updates. -/
def coalesceLiveToolUpdatedEvents (events : List OrchestrationEvent) : List OrchestrationEvent :=
  let state := events.foldl (fun state event ↦ coalesceEvent state.1 state.2 event) ([], [])
  state.1 ++ flushUpdates state.2

/-! ## The buffer -/

/-- What is offered to the buffer, and what it hands on: events, and the mark that the subscriber
has caught up. -/
inductive ThreadLiveInput
  | event (event : OrchestrationEvent)
  | synchronized

def maxPendingUpdates : ℕ := 512

/-- What one buffer is made with. -/
structure CoalescerOptions where
  projection : ActivityPayloadProjection
  /-- The bytes of an item on the wire. -/
  serializedSize : ThreadLiveInput → ℕ
  maxItems : ℕ := 1000
  maxSerializedBytes : ℕ := 8 * 1024 * 1024

/-- **The buffer of one subscription.** -/
structure LiveCoalescer where
  pendingUpdates : List OrchestrationEvent := []
  /-- The queue that the subscriber pulls from. -/
  output : List ThreadLiveInput := []
  /-- The batch that the subscriber has pulled last. -/
  inFlight : List ThreadLiveInput := []
  /-- What it has pulled before. -/
  delivered : List ThreadLiveInput := []
  windowGeneration : ℕ := 0
  /-- The generation that the running timer belongs to. -/
  windowFiber : Option ℕ := none
  failed : Bool := false

namespace LiveCoalescer

variable (options : CoalescerOptions) (c : LiveCoalescer)

/-- What counts against the budget: an item does so until the batch after its own is pulled. -/
def retained : List ThreadLiveInput := c.pendingUpdates.map .event ++ c.output ++ c.inFlight

/-- The budget does not hold these items. -/
def overBudget (items : List ThreadLiveInput) : Bool :=
  options.maxItems < items.length ∨
    options.maxSerializedBytes < (items.map options.serializedSize).sum

/-- The stream fails, and what has not been pulled is dropped. -/
def overflow : LiveCoalescer :=
  { c with
    pendingUpdates := []
    output := []
    windowGeneration := c.windowGeneration + 1
    windowFiber := none
    failed := true }

/-- Put the coalesced updates into the queue, in the place of the pending ones. -/
def flushPending : LiveCoalescer :=
  if c.pendingUpdates = [] then c
  else
    let items := (coalesceLiveToolUpdatedEvents c.pendingUpdates).map ThreadLiveInput.event
    if overBudget options (items ++ c.output ++ c.inFlight) then c.overflow
    else { c with pendingUpdates := [], output := c.output ++ items }

/-- Stop the timer, and let no timer of this generation flush. -/
def closeWindow : LiveCoalescer :=
  { c with windowFiber := none, windowGeneration := c.windowGeneration + 1 }

/-- The first pending update starts a timer. -/
def openWindow : LiveCoalescer :=
  if c.pendingUpdates.length = 1 then
    { c with
      windowGeneration := c.windowGeneration + 1
      windowFiber := some (c.windowGeneration + 1) }
  else c

/-- Hold an event for the subscriber. -/
def retainEvent (event : OrchestrationEvent) : LiveCoalescer :=
  if overBudget options (c.retained ++ [.event event]) then c.overflow
  else { c with pendingUpdates := c.pendingUpdates ++ [event] }

/-- Put the mark into the queue. -/
def retainMarker : LiveCoalescer :=
  if c.failed then c
  else if overBudget options (c.retained ++ [.synchronized]) then c.overflow
  else { c with output := c.output ++ [.synchronized] }

/-- **One input.** An event that is no update, and the mark, close the run of updates. -/
def offer (input : ThreadLiveInput) : LiveCoalescer :=
  if c.failed then c
  else match input with
    | .event event =>
      let c := c.retainEvent options (projectActivityEvent options.projection event)
      if c.failed then c
      else if isToolUpdated event then
        let c := c.openWindow
        if maxPendingUpdates ≤ c.pendingUpdates.length then c.closeWindow.flushPending options
        else c
      else c.closeWindow.flushPending options
    | .synchronized => (c.closeWindow.flushPending options).retainMarker options

/-- A window times out. -/
def timeOut (generation : ℕ) : LiveCoalescer :=
  if c.failed ∨ generation ≠ c.windowGeneration then c
  else { c.flushPending options with windowFiber := none }

/-- The subscriber asks for up to so many items, and has got the last batch by that. -/
def pull (count : ℕ) : LiveCoalescer :=
  if c.failed then c
  else { c with
    delivered := c.delivered ++ c.inFlight
    inFlight := c.output.take count
    output := c.output.drop count }

end LiveCoalescer

/-- What happens to a buffer. -/
inductive CoalescerStep
  | offerAll (inputs : List ThreadLiveInput)
  | timeOut (generation : ℕ)
  | pull (count : ℕ)

def LiveCoalescer.step (options : CoalescerOptions) (c : LiveCoalescer) :
    CoalescerStep → LiveCoalescer
  | .offerAll inputs => inputs.foldl (fun c input ↦ c.offer options input) c
  | .timeOut generation => c.timeOut options generation
  | .pull count => c.pull count

/-- The buffer after a run. -/
def LiveCoalescer.after (options : CoalescerOptions) (steps : List CoalescerStep) :
    LiveCoalescer :=
  steps.foldl (LiveCoalescer.step options) {}

/-!
## What the coalescer lets through

The output of the live coalescer is its input, thinned: `coalesced_after`. Only tool updates are
missing that another update of the same call follows before their run ends, so the last update of
each call is there, the mark of a caught up subscriber comes after everything before it, and the
output ends where the input ends.

The buffer is bounded. Once it overflows the stream fails, and what the subscriber has pulled by
then is all it gets: `overflown` is such a run.
-/

/-! ## Coalescing a list -/

/-- The key of a tool update. -/
def updateKey (event : OrchestrationEvent) : Option String :=
  if isToolUpdated event then toolCallKey event else none

section Coalesce

variable {events pendingUpdates : List OrchestrationEvent} {event : OrchestrationEvent}

theorem latestUpdates_cons : latestUpdates (event :: pendingUpdates) =
    match toolCallKey event with
    | some key => if key ∈ (latestUpdates pendingUpdates).2 then latestUpdates pendingUpdates
        else (event :: (latestUpdates pendingUpdates).1, key :: (latestUpdates pendingUpdates).2)
    | none => (event :: (latestUpdates pendingUpdates).1, (latestUpdates pendingUpdates).2) := rfl

/-- The keys seen are the keys of the updates. -/
theorem mem_latestUpdates_seen {key : String} :
    key ∈ (latestUpdates pendingUpdates).2 ↔
      ∃ event ∈ pendingUpdates, toolCallKey event = some key := by
  induction pendingUpdates with
  | nil => simp [latestUpdates]
  | cons event pendingUpdates ih =>
    rw [latestUpdates_cons]
    cases hkey : toolCallKey event with
    | none => simp [ih, hkey]
    | some k =>
      dsimp only
      split
      · rename_i hseen
        simp only [ih, List.mem_cons, exists_eq_or_imp, hkey, Option.some.injEq]
        constructor
        · exact .inr
        · rintro (rfl | h)
          · exact ih.mp hseen
          · exact h
      · simp [ih, hkey, eq_comm]

/-- Coalescing a run drops superseded updates. -/
theorem thinned_flushUpdates (hrun : ∀ event ∈ pendingUpdates, isToolUpdated event = true) :
    Thinned (Superseded isToolUpdated updateKey) pendingUpdates (flushUpdates pendingUpdates) := by
  rw [flushUpdates]
  induction pendingUpdates with
  | nil => exact .nil
  | cons event pendingUpdates ih =>
    obtain ⟨hevent, hrun⟩ := List.forall_mem_cons.mp hrun
    rw [latestUpdates_cons]
    split
    · rename_i key hkey
      split
      · rename_i hseen
        obtain ⟨later, hlater, hlaterKey⟩ := mem_latestUpdates_seen.mp hseen
        refine .drop ⟨key, ?_, later, ?_, ?_⟩ (ih hrun)
        · rw [updateKey, if_pos hevent, hkey]
        · rwa [List.takeWhile_eq_self_iff.mpr hrun]
        · rw [updateKey, if_pos (hrun later hlater), hlaterKey]
      · exact .keep event (ih hrun)
    · exact .keep event (ih hrun)

theorem isToolUpdated_of_mem_flushUpdates
    (hrun : ∀ event ∈ pendingUpdates, isToolUpdated event = true) :
    ∀ event ∈ flushUpdates pendingUpdates, isToolUpdated event = true :=
  fun event hevent ↦ hrun event ((thinned_flushUpdates hrun).sublist.subset hevent)

/-- A coalesced run stays as it is. -/
theorem flushUpdates_flushUpdates :
    flushUpdates (flushUpdates pendingUpdates) = flushUpdates pendingUpdates := by
  suffices h : latestUpdates (latestUpdates pendingUpdates).1 = latestUpdates pendingUpdates from
    congrArg Prod.fst h
  induction pendingUpdates with
  | nil => rfl
  | cons event pendingUpdates ih =>
    rw [latestUpdates_cons]
    split
    · rename_i key hkey
      split
      · exact ih
      · rename_i hseen
        rw [latestUpdates_cons, ih, hkey]
        exact if_neg hseen
    · rename_i hkey
      rw [latestUpdates_cons, ih, hkey]

theorem coalesceEvent_of_update (h : isToolUpdated event = true)
    (survivors pendingUpdates : List OrchestrationEvent) :
    coalesceEvent survivors pendingUpdates event = (survivors, pendingUpdates ++ [event]) :=
  if_pos h

theorem coalesceEvent_of_boundary (h : isToolUpdated event = false)
    (survivors pendingUpdates : List OrchestrationEvent) :
    coalesceEvent survivors pendingUpdates event =
      (survivors ++ flushUpdates pendingUpdates ++ [event], []) :=
  if_neg (by simp [h])

/-- What has survived is not looked at again. -/
private theorem foldl_coalesceEvent (survivors : List OrchestrationEvent)
    (pendingUpdates events : List OrchestrationEvent) :
    events.foldl (fun state event ↦ coalesceEvent state.1 state.2 event)
        (survivors, pendingUpdates) =
      (survivors ++ (events.foldl (fun state event ↦ coalesceEvent state.1 state.2 event)
          ([], pendingUpdates)).1,
        (events.foldl (fun state event ↦ coalesceEvent state.1 state.2 event)
          ([], pendingUpdates)).2) := by
  induction events generalizing survivors pendingUpdates with
  | nil => simp
  | cons event events ih =>
    rw [List.foldl_cons, List.foldl_cons]
    cases hevent : isToolUpdated event with
    | true =>
      rw [coalesceEvent_of_update hevent, coalesceEvent_of_update hevent]
      exact ih _ _
    | false =>
      rw [coalesceEvent_of_boundary hevent, coalesceEvent_of_boundary hevent, ih,
        ih ([] ++ _ ++ _)]
      simp

private theorem foldl_coalesceEvent_run (hrun : ∀ event ∈ events, isToolUpdated event = true) :
    events.foldl (fun state event ↦ coalesceEvent state.1 state.2 event) ([], pendingUpdates) =
      ([], pendingUpdates ++ events) := by
  induction events generalizing pendingUpdates with
  | nil => simp
  | cons event events ih =>
    obtain ⟨hevent, hrun⟩ := List.forall_mem_cons.mp hrun
    rw [List.foldl_cons, coalesceEvent_of_update hevent, ih hrun, List.append_assoc,
      List.singleton_append]

/-- A list without a boundary is one run. -/
theorem coalesce_run (hrun : ∀ event ∈ events, isToolUpdated event = true) :
    coalesceLiveToolUpdatedEvents events = flushUpdates events := by
  rw [coalesceLiveToolUpdatedEvents, foldl_coalesceEvent_run hrun, List.nil_append,
    List.nil_append]

/-- Up to its first boundary a list is one run. -/
theorem coalesce_separator (hrun : ∀ event ∈ events, isToolUpdated event = true)
    (hevent : isToolUpdated event = false) (rest : List OrchestrationEvent) :
    coalesceLiveToolUpdatedEvents (events ++ event :: rest) =
      flushUpdates events ++ event :: coalesceLiveToolUpdatedEvents rest := by
  rw [coalesceLiveToolUpdatedEvents, List.foldl_append, foldl_coalesceEvent_run hrun,
    List.foldl_cons, coalesceEvent_of_boundary hevent, foldl_coalesceEvent,
    coalesceLiveToolUpdatedEvents]
  simp

/-- **Coalescing drops superseded updates, and nothing else.** -/
theorem thinned_coalesce (events : List OrchestrationEvent) :
    Thinned (Superseded isToolUpdated updateKey) events (coalesceLiveToolUpdatedEvents events) := by
  induction events using runs_induction isToolUpdated with
  | run events hrun =>
    rw [coalesce_run hrun]
    exact thinned_flushUpdates hrun
  | separator events event rest hrun hevent ih =>
    rw [coalesce_separator hrun hevent]
    exact (thinned_flushUpdates hrun).append (fun _ _ more h ↦ h.append more) (.keep event ih)

/-- **Coalescing what is coalesced changes nothing.** -/
theorem coalesce_coalesce (events : List OrchestrationEvent) :
    coalesceLiveToolUpdatedEvents (coalesceLiveToolUpdatedEvents events) =
      coalesceLiveToolUpdatedEvents events := by
  induction events using runs_induction isToolUpdated with
  | run events hrun =>
    rw [coalesce_run hrun, coalesce_run (isToolUpdated_of_mem_flushUpdates hrun),
      flushUpdates_flushUpdates]
  | separator events event rest hrun hevent ih =>
    rw [coalesce_separator hrun hevent,
      coalesce_separator (isToolUpdated_of_mem_flushUpdates hrun) hevent,
      flushUpdates_flushUpdates, ih]

end Coalesce

/-! ## The buffer -/

namespace ThreadLiveInput

/-- The input as the subscriber gets it. -/
def project (projection : ActivityPayloadProjection) : ThreadLiveInput → ThreadLiveInput
  | .event e => .event (projectActivityEvent projection e)
  | .synchronized => .synchronized

/-- An input that does not end a run of updates. -/
def isUpdate : ThreadLiveInput → Bool
  | .event e => isToolUpdated e
  | .synchronized => false

/-- The key of a tool update, if the input is one. -/
def key : ThreadLiveInput → Option String
  | .event e => updateKey e
  | .synchronized => none

end ThreadLiveInput

/-- An update that another one of the same call follows in its run. -/
abbrev SupersededInput : ThreadLiveInput → List ThreadLiveInput → Prop :=
  Superseded ThreadLiveInput.isUpdate ThreadLiveInput.key

namespace LiveCoalescer

variable {options : CoalescerOptions} {c : LiveCoalescer} {inputs : List ThreadLiveInput}

/-- What has come out of the buffer. -/
def emitted (c : LiveCoalescer) : List ThreadLiveInput := c.delivered ++ c.inFlight ++ c.output

/-- **What the buffer has made of its inputs**: up to the pending updates, which are the last ones,
they have come out thinned. -/
def Coalesces (inputs : List ThreadLiveInput) (c : LiveCoalescer) : Prop :=
  ∃ flushed, inputs = flushed ++ c.pendingUpdates.map .event ∧
    Thinned SupersededInput flushed c.emitted

theorem Coalesces.flushPending (h : c.Coalesces inputs)
    (hflushed : (c.flushPending options).failed = false) :
    (c.flushPending options).Coalesces inputs ∧
      (c.flushPending options).pendingUpdates = [] := by
  obtain ⟨flushed, rfl, hthinned⟩ := h
  rw [LiveCoalescer.flushPending] at hflushed ⊢
  by_cases hpending : c.pendingUpdates = []
  · rw [if_pos hpending]
    exact ⟨⟨flushed, rfl, hthinned⟩, hpending⟩
  · rw [if_neg hpending] at hflushed ⊢
    dsimp only at hflushed ⊢
    split at hflushed
    · cases hflushed
    · rename_i hbudget
      rw [if_neg hbudget]
      refine ⟨⟨flushed ++ c.pendingUpdates.map .event, (List.append_nil _).symm, ?_⟩, rfl⟩
      rw [emitted, ← List.append_assoc]
      exact hthinned.append (fun _ _ more h ↦ h.append more)
        ((thinned_coalesce c.pendingUpdates).map ThreadLiveInput.event fun _ _ h ↦
          (superseded_map (f := ThreadLiveInput.event) (fun _ ↦ rfl) fun _ ↦ rfl).mpr h)

/-- What the subscriber has pulled. -/
def pulled (c : LiveCoalescer) : List ThreadLiveInput := c.delivered ++ c.inFlight

theorem pulled_flushPending : (c.flushPending options).pulled = c.pulled := by
  rw [LiveCoalescer.flushPending]
  dsimp only
  split
  · rfl
  · split <;> rfl

theorem pulled_retainEvent {event : OrchestrationEvent} :
    (c.retainEvent options event).pulled = c.pulled := by
  rw [retainEvent]
  split <;> rfl

theorem pulled_retainMarker : (c.retainMarker options).pulled = c.pulled := by
  rw [retainMarker]
  split
  · rfl
  · split <;> rfl

/-- **The invariant of the buffer.** While it has not failed, it has coalesced its inputs, and a
timer runs that will flush what is pending; in any case the subscriber has pulled inputs in their
order. -/
structure Sound (inputs : List ThreadLiveInput) (c : LiveCoalescer) : Prop where
  coalesces : c.failed = false → c.Coalesces inputs
  window : c.failed = false → c.pendingUpdates ≠ [] → c.windowFiber = some c.windowGeneration
  pulled : c.pulled.Sublist inputs

theorem Sound.of_failed (hfailed : c.failed = true) (hpulled : c.pulled.Sublist inputs) :
    c.Sound inputs where
  coalesces h := absurd (hfailed.symm.trans h) (by simp)
  window h := absurd (hfailed.symm.trans h) (by simp)
  pulled := hpulled

/-- Closing the window and flushing leaves nothing pending. -/
theorem sound_close (h : c.Coalesces inputs) (hpulled : c.pulled.Sublist inputs) :
    (c.closeWindow.flushPending options).Sound inputs ∧
      ((c.closeWindow.flushPending options).failed = false →
        (c.closeWindow.flushPending options).pendingUpdates = []) := by
  have hpulled' : (c.closeWindow.flushPending options).pulled.Sublist inputs := by
    rw [pulled_flushPending]
    exact hpulled
  cases hfailed : (c.closeWindow.flushPending options).failed with
  | true => exact ⟨.of_failed hfailed hpulled', by simp⟩
  | false =>
    obtain ⟨hcoalesces, hpending⟩ := Coalesces.flushPending (c := c.closeWindow) h hfailed
    exact ⟨⟨fun _ ↦ hcoalesces, fun _ hne ↦ absurd hpending hne, hpulled'⟩, fun _ ↦ hpending⟩

theorem Sound.retainEvent (h : c.Sound inputs) (hlive : c.failed = false)
    (event : OrchestrationEvent) :
    (c.retainEvent options event).pulled.Sublist (inputs ++ [.event event]) ∧
      ((c.retainEvent options event).failed = false →
        (c.retainEvent options event).Coalesces (inputs ++ [.event event])) := by
  refine ⟨?_, fun hretained ↦ ?_⟩
  · rw [pulled_retainEvent]
    exact h.pulled.trans (List.sublist_append_left _ _)
  · obtain ⟨flushed, rfl, hthinned⟩ := h.coalesces hlive
    rw [LiveCoalescer.retainEvent] at hretained ⊢
    split at hretained
    · cases hretained
    · rename_i hbudget
      rw [if_neg hbudget]
      refine ⟨flushed, ?_, hthinned⟩
      rw [List.map_append, List.map_singleton, List.append_assoc]

theorem Sound.mono (h : c.Sound inputs) (hfailed : c.failed = true) (more : List ThreadLiveInput) :
    c.Sound (inputs ++ more) :=
  .of_failed hfailed (h.pulled.trans (List.sublist_append_left _ _))

/-- The mark follows everything that was pending. -/
private theorem Sound.retainMarker (h : c.Sound inputs)
    (hpending : c.failed = false → c.pendingUpdates = []) :
    (c.retainMarker options).Sound (inputs ++ [.synchronized]) := by
  have hpulled : (c.retainMarker options).pulled.Sublist (inputs ++ [.synchronized]) := by
    rw [pulled_retainMarker]
    exact h.pulled.trans (List.sublist_append_left _ _)
  rw [LiveCoalescer.retainMarker] at hpulled ⊢
  cases hlive : c.failed with
  | true => exact h.mono hlive _
  | false =>
    rw [hlive, if_neg (by simp)] at hpulled
    rw [if_neg (by simp)]
    split at hpulled
    · rename_i hbudget
      rw [if_pos hbudget]
      exact .of_failed rfl hpulled
    · rename_i hbudget
      rw [if_neg hbudget]
      refine ⟨fun _ ↦ ?_, fun _ hne ↦ absurd (hpending hlive) hne, hpulled⟩
      obtain ⟨flushed, rfl, hthinned⟩ := h.coalesces hlive
      rw [hpending hlive, List.map_nil, List.append_nil]
      refine ⟨flushed ++ [.synchronized], by simp, ?_⟩
      rw [emitted, ← List.append_assoc]
      exact hthinned.append (fun _ _ more h ↦ h.append more) (.refl _)

/-- With an update pending a timer runs. -/
private theorem Sound.openWindow (h : c.Sound inputs) (hlive : c.failed = false)
    {event : OrchestrationEvent} (hretained : (c.retainEvent options event).failed = false) :
    (c.retainEvent options event).openWindow.windowFiber =
      some (c.retainEvent options event).openWindow.windowGeneration := by
  rw [LiveCoalescer.retainEvent] at hretained ⊢
  split at hretained
  · cases hretained
  · rename_i hbudget
    rw [if_neg hbudget, LiveCoalescer.openWindow]
    split
    · rfl
    · rename_i hlength
      refine h.window hlive ?_
      rintro hnil
      simp [hnil] at hlength

theorem Coalesces.openWindow (h : c.Coalesces inputs) : c.openWindow.Coalesces inputs := by
  rw [LiveCoalescer.openWindow]
  split <;> exact h

theorem pulled_openWindow : c.openWindow.pulled = c.pulled := by
  rw [LiveCoalescer.openWindow]
  split <;> rfl

/-- **One input.** -/
theorem Sound.offer (h : c.Sound inputs) (input : ThreadLiveInput) :
    (c.offer options input).Sound (inputs ++ [input.project options.projection]) := by
  rw [LiveCoalescer.offer.eq_def]
  cases hlive : c.failed with
  | true => exact h.mono hlive _
  | false =>
    rw [if_neg (by simp)]
    cases input with
    | synchronized =>
      obtain ⟨hclosed, hpending⟩ := sound_close (h.coalesces hlive) h.pulled
      exact hclosed.retainMarker hpending
    | event event =>
      obtain ⟨hpulled, hcoalesces⟩ := h.retainEvent hlive
        (projectActivityEvent options.projection event)
      dsimp only
      cases hretained : (c.retainEvent options
          (projectActivityEvent options.projection event)).failed with
      | true => exact .of_failed hretained hpulled
      | false =>
        rw [if_neg (by simp)]
        have hopened := (hcoalesces hretained).openWindow
        rw [← pulled_openWindow] at hpulled
        split
        · split
          · exact (sound_close hopened hpulled).1
          · exact ⟨fun _ ↦ hopened, fun _ _ ↦ h.openWindow hlive hretained, hpulled⟩
        · rw [pulled_openWindow] at hpulled
          exact (sound_close (hcoalesces hretained) hpulled).1

/-- **A timer.** -/
theorem Sound.timeOut (h : c.Sound inputs) (generation : ℕ) :
    (c.timeOut options generation).Sound inputs := by
  rw [LiveCoalescer.timeOut]
  split
  · exact h
  · rename_i hfires
    rw [not_or, Bool.not_eq_true] at hfires
    cases hfailed : (c.flushPending options).failed with
    | true => exact .of_failed hfailed (by
        show (c.flushPending options).pulled.Sublist inputs
        rw [pulled_flushPending]
        exact h.pulled)
    | false =>
      obtain ⟨hcoalesces, hpending⟩ := (h.coalesces hfires.1).flushPending hfailed
      refine ⟨fun _ ↦ hcoalesces, fun _ hne ↦ absurd hpending hne, ?_⟩
      show (c.flushPending options).pulled.Sublist inputs
      rw [pulled_flushPending]
      exact h.pulled

/-- **A pull.** -/
theorem Sound.pull (h : c.Sound inputs) (count : ℕ) : (c.pull count).Sound inputs := by
  rw [LiveCoalescer.pull]
  cases hlive : c.failed with
  | true => exact h
  | false =>
    rw [if_neg (by simp)]
    obtain ⟨flushed, rfl, hthinned⟩ := h.coalesces hlive
    rw [emitted, ← List.take_append_drop count c.output, ← List.append_assoc] at hthinned
    refine ⟨fun _ ↦ ⟨flushed, rfl, hthinned⟩, fun _ ↦ h.window hlive, ?_⟩
    refine ((List.sublist_append_left _ _).trans hthinned.sublist).trans ?_
    exact List.sublist_append_left flushed _

end LiveCoalescer

/-! ## Runs -/

/-- What a step offers. -/
def CoalescerStep.inputs : CoalescerStep → List ThreadLiveInput
  | .offerAll inputs => inputs
  | .timeOut _ | .pull _ => []

theorem LiveCoalescer.Sound.step {options : CoalescerOptions} {c : LiveCoalescer}
    {inputs : List ThreadLiveInput} (h : c.Sound (inputs.map (·.project options.projection)))
    (step : CoalescerStep) :
    (c.step options step).Sound ((inputs ++ step.inputs).map (·.project options.projection)) := by
  cases step with
  | timeOut generation =>
    rw [CoalescerStep.inputs, List.append_nil]
    exact h.timeOut generation
  | pull count =>
    rw [CoalescerStep.inputs, List.append_nil]
    exact h.pull count
  | offerAll offered =>
    rw [CoalescerStep.inputs, LiveCoalescer.step]
    induction offered generalizing c inputs with
    | nil =>
      rw [List.append_nil]
      exact h
    | cons input offered ih =>
      rw [List.foldl_cons, List.append_cons]
      refine ih ?_
      rw [List.map_append, List.map_singleton]
      exact h.offer input

/-- **The invariant of runs.** -/
theorem LiveCoalescer.sound_after (options : CoalescerOptions) (steps : List CoalescerStep) :
    (LiveCoalescer.after options steps).Sound
      ((steps.flatMap CoalescerStep.inputs).map (·.project options.projection)) := by
  rw [LiveCoalescer.after]
  induction steps using List.reverseRecOn with
  | nil =>
    exact ⟨fun _ ↦ ⟨[], rfl, .nil⟩, fun _ hne ↦ absurd rfl hne, List.Sublist.refl _⟩
  | append_singleton steps step ih =>
    rw [List.foldl_concat, List.flatMap_append, List.flatMap_singleton]
    exact ih.step step

section Projection

variable {projection : ActivityPayloadProjection}

theorem activity?_projectActivityEvent (event : OrchestrationEvent) :
    (projectActivityEvent projection event).activity? = event.activity?.map fun activity ↦
      { activity with payload := projection.project activity.payload } := by
  cases hpayload : event.payload with
  | project => simp [projectActivityEvent, OrchestrationEvent.activity?, hpayload]
  | thread threadId payload =>
    cases payload <;> simp [projectActivityEvent, OrchestrationEvent.activity?, hpayload]

theorem isToolUpdated_projectActivityEvent (event : OrchestrationEvent) :
    isToolUpdated (projectActivityEvent projection event) = isToolUpdated event := by
  rw [isToolUpdated, isToolUpdated, activity?_projectActivityEvent, Option.any_map]

/-- The projection does not touch what makes the key of an update. -/
theorem updateKey_projectActivityEvent (event : OrchestrationEvent) :
    updateKey (projectActivityEvent projection event) = updateKey event := by
  rw [updateKey, updateKey, isToolUpdated_projectActivityEvent, toolCallKey, toolCallKey,
    stableToolCallIdentity, stableToolCallIdentity, activity?_projectActivityEvent]
  cases event.activity? with
  | none => rfl
  | some activity =>
    simp only [Option.map_some, Option.bind_some, projection.payloadToolCallId_project]

theorem supersededInput_project {a : ThreadLiveInput} {rest : List ThreadLiveInput} :
    SupersededInput (a.project projection) (rest.map (·.project projection)) ↔
      SupersededInput a rest := by
  refine superseded_map (fun input ↦ ?_) fun input ↦ ?_
  · cases input with
    | event event => exact isToolUpdated_projectActivityEvent event
    | synchronized => rfl
  · cases input with
    | event event => exact updateKey_projectActivityEvent event
    | synchronized => rfl

end Projection

/-- The event of an item. -/
def ThreadLiveInput.event? : ThreadLiveInput → Option OrchestrationEvent
  | .event e => some e
  | .synchronized => none

/-- **What a coalesced output keeps of its inputs.** It is a subsequence in which only superseded
updates are missing: an item that is not superseded comes out after items from before it and before
items from after it, and the last event comes out last. -/
structure CoalescedOutput (inputs kept : List ThreadLiveInput) : Prop where
  thinned : Thinned SupersededInput inputs kept
  keeps : ∀ before input after, inputs = before ++ input :: after → ¬ SupersededInput input after →
    ∃ first last, kept = first ++ input :: last ∧ first.Sublist before ∧ last.Sublist after
  ends : ((kept.filterMap (·.event?)).getLast?.map (·.sequence)) =
    ((inputs.filterMap (·.event?)).getLast?.map (·.sequence))

/-- Nothing supersedes the last event. -/
private theorem exists_last_event (inputs : List ThreadLiveInput) :
    inputs.filterMap (·.event?) = [] ∨
      ∃ before event after, inputs = before ++ .event event :: after ∧
      after.filterMap (·.event?) = [] := by
  induction inputs using List.reverseRecOn with
  | nil => exact .inl rfl
  | append_singleton inputs input ih =>
    cases input with
    | event event => exact .inr ⟨inputs, event, [], rfl, rfl⟩
    | synchronized =>
      obtain hnone | ⟨before, event, after, rfl, hafter⟩ := ih
      · exact .inl (by rw [List.filterMap_append, hnone]; rfl)
      · refine .inr ⟨before, event, after ++ [.synchronized], by simp, ?_⟩
        rw [List.filterMap_append, hafter]
        rfl

private theorem last_event {before after : List ThreadLiveInput} (event : OrchestrationEvent)
    (hafter : after.filterMap (·.event?) = []) :
    ((before ++ .event event :: after).filterMap (·.event?)).getLast? = some event := by
  rw [List.filterMap_append, List.filterMap_cons_some (by rfl), hafter, List.getLast?_concat]

private theorem not_superseded_of_no_event {input : ThreadLiveInput} {after : List ThreadLiveInput}
    (hafter : after.filterMap (·.event?) = []) : ¬ SupersededInput input after := by
  rintro ⟨key, -, later, hlater, hkey⟩
  have hnone := List.filterMap_eq_nil_iff.mp hafter later ((List.takeWhile_prefix _).subset hlater)
  cases later with
  | event event => cases hnone
  | synchronized => cases hkey

theorem coalescedOutput_of_thinned {inputs kept : List ThreadLiveInput}
    (h : Thinned SupersededInput inputs kept) : CoalescedOutput inputs kept where
  thinned := h
  keeps before input after hsplit hstays := by
    subst hsplit
    obtain ⟨first, last, hkept, hfirst, hlast⟩ := h.split hstays
    exact ⟨first, last, hkept, hfirst, hlast.sublist⟩
  ends := by
    obtain hnone | ⟨before, event, after, rfl, hafter⟩ := exists_last_event inputs
    · have hkept := h.sublist.filterMap (·.event?)
      rw [hnone, List.sublist_nil] at hkept
      rw [hnone, hkept]
    · obtain ⟨first, last, rfl, -, hlast⟩ := h.split (not_superseded_of_no_event hafter)
      have hkept := hlast.sublist.filterMap (·.event?)
      rw [hafter, List.sublist_nil] at hkept
      rw [last_event event hafter, last_event event hkept]

/-- **What the coalescer lets through**, whatever is offered and whenever it flushes. As long as the
buffer does not overflow, what has come out coalesces the inputs up to the pending ones, and while
some are pending a timer runs that flushes them; in any case the subscriber has got inputs in their
order. Coalescing a list twice is coalescing it once. -/
theorem coalesced_after (options : CoalescerOptions) (steps : List CoalescerStep) :
    let c := LiveCoalescer.after options steps
    let inputs := steps.flatMap CoalescerStep.inputs
    let project := ThreadLiveInput.project options.projection
    (c.failed = false → ∃ flushed pending kept, inputs = flushed ++ pending ∧
      c.pendingUpdates.map ThreadLiveInput.event = pending.map project ∧
      c.emitted = kept.map project ∧ CoalescedOutput flushed kept) ∧
    (c.failed = false → c.pendingUpdates ≠ [] → c.windowFiber = some c.windowGeneration) ∧
    c.pulled.Sublist (inputs.map project) ∧
    ∀ events, coalesceLiveToolUpdatedEvents (coalesceLiveToolUpdatedEvents events) =
      coalesceLiveToolUpdatedEvents events := by
  intro c inputs project
  have hsound := LiveCoalescer.sound_after options steps
  refine ⟨fun hlive ↦ ?_, hsound.window, hsound.pulled, coalesce_coalesce⟩
  obtain ⟨flushed', hinputs, hthinned⟩ := hsound.coalesces hlive
  obtain ⟨flushed, pending, hsplit, rfl, hpending⟩ := List.map_eq_append_iff.mp hinputs
  obtain ⟨kept, hkept, hthinned⟩ := hthinned.of_map fun _ _ ↦ supersededInput_project.mp
  exact ⟨flushed, pending, kept, hsplit, hpending.symm, hkept,
    coalescedOutput_of_thinned hthinned⟩

/-! ## A buffer that overflows -/

/-- A projection that leaves payloads as they are. -/
def wholePayload : ActivityPayloadProjection where
  project := id
  payloadToolCallId_project _ := rfl

/-- A message of an assistant. -/
def liveMessage (sequence : ℕ) : ThreadLiveInput :=
  .event { threadEvent "c" "t" "2026-03-01T12:00:00.000Z" (.messageSent {
      messageId := "m", role := .assistant, text := "Hi", turnId := none, streaming := true
      createdAt := "2026-03-01T12:00:00.000Z", updatedAt := "2026-03-01T12:00:00.000Z" }) with
    sequence }

/-- A buffer for two items. -/
def smallBuffer : CoalescerOptions where
  projection := wholePayload
  serializedSize _ := 400
  maxItems := 2

/-- Three messages come and nobody pulls. -/
def overflown : List CoalescerStep := [.offerAll [liveMessage 1, liveMessage 2, liveMessage 3]]

/-- Nothing comes out of a buffer that has overflown. -/
theorem not_coalesced_after : ¬ ∀ (options : CoalescerOptions) (steps : List CoalescerStep),
    (LiveCoalescer.after options steps).pendingUpdates = [] →
    ∃ kept, (LiveCoalescer.after options steps).emitted =
        kept.map (ThreadLiveInput.project options.projection) ∧
      CoalescedOutput (steps.flatMap CoalescerStep.inputs) kept := by
  intro h
  obtain ⟨kept, hemitted, houtput⟩ := h smallBuffer overflown (by rfl)
  have hnothing : (LiveCoalescer.after smallBuffer overflown).emitted = [] := by rfl
  obtain rfl := List.map_eq_nil_iff.mp (hemitted.symm.trans hnothing)
  cases houtput.ends

end Awen.Orchestration
