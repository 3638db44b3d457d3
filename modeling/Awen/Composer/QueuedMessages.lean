import Awen.Library.FirstGreatest
import Awen.Library.OrderedMap
import Awen.Library.Unicode
import Mathlib.Data.List.Lex
import Mathlib.Data.Prod.Lex

/-!
# Queued composer messages

While a turn is running the composer holds submissions back, one queue for each thread. A message
leaves its queue when it is sent (`take`), when the user takes it back (`remove`), or with all
others on Stop (`drain`); a send that failed puts its message back at the head (`holdAtFront`).
-/

namespace Awen.Composer

variable {δ : Type*}

/-- A submission that is held back. `draft` is what it carries: the prompt, the attachments and the
contexts. -/
structure QueuedComposerMessage (δ : Type*) where
  id : String
  draft : δ
  /-- The newest completed tool activity at queue time. -/
  queuedAfterToolActivityId : Option String
  holdUntilUserAction : Bool := false
  deriving DecidableEq

structure QueuedMessageStore (δ : Type*) where
  queuesByThreadKey : OrderedMap String (List (QueuedComposerMessage δ))
  /-- Bumped by `drain`. -/
  drainGeneration : ℕ

namespace QueuedMessageStore

def empty : QueuedMessageStore δ := ⟨.empty, 0⟩

/-- `state.queuesByThreadKey[threadKey] ?? EMPTY_QUEUE` -/
def queue (s : QueuedMessageStore δ) (threadKey : String) : List (QueuedComposerMessage δ) :=
  (s.queuesByThreadKey.get threadKey).getD []

/-- Store what is left of a queue; a queue without messages is deleted. -/
def setRemaining (s : QueuedMessageStore δ) (threadKey : String)
    (remaining : List (QueuedComposerMessage δ)) : QueuedMessageStore δ :=
  { s with queuesByThreadKey :=
      if remaining.length = 0 then s.queuesByThreadKey.delete threadKey
      else s.queuesByThreadKey.set threadKey remaining }

/-- `message` comes with the id that it is given. -/
def enqueue (s : QueuedMessageStore δ) (threadKey : String) (message : QueuedComposerMessage δ) :
    QueuedMessageStore δ :=
  { s with queuesByThreadKey := s.queuesByThreadKey.set threadKey (s.queue threadKey ++ [message]) }

def take (s : QueuedMessageStore δ) (threadKey id : String) (toolActivityId : Option String) :
    QueuedMessageStore δ × Option (QueuedComposerMessage δ) :=
  match (s.queue threadKey).find? fun message ↦ message.id = id with
  | none => (s, none)
  | some entry =>
    let remaining := ((s.queue threadKey).filter fun message ↦ message.id ≠ id).map fun message ↦
      if message.queuedAfterToolActivityId = toolActivityId then message
      else { message with queuedAfterToolActivityId := toolActivityId }
    (s.setRemaining threadKey remaining, some entry)

def remove (s : QueuedMessageStore δ) (threadKey id : String) :
    QueuedMessageStore δ × Option (QueuedComposerMessage δ) :=
  match (s.queue threadKey).find? fun message ↦ message.id = id with
  | none => (s, none)
  | some entry =>
    let remaining := (s.queue threadKey).filter fun message ↦ message.id ≠ id
    (s.setRemaining threadKey remaining, some entry)

def holdAtFront (s : QueuedMessageStore δ) (threadKey : String)
    (message : QueuedComposerMessage δ) : QueuedMessageStore δ :=
  let rest := (s.queue threadKey).filter fun entry ↦ entry.id ≠ message.id
  let held := { message with holdUntilUserAction := true }
  { s with queuesByThreadKey := s.queuesByThreadKey.set threadKey (held :: rest) }

def drain (s : QueuedMessageStore δ) (threadKey : String) :
    QueuedMessageStore δ × List (QueuedComposerMessage δ) :=
  let queue := s.queue threadKey
  if queue.length = 0 then (s, [])
  else
    ({ queuesByThreadKey := s.queuesByThreadKey.delete threadKey
       drainGeneration := s.drainGeneration + 1 }, queue)

end QueuedMessageStore

/-! ## When a message is due -/

structure ToolActivity where
  id : String
  kind : String
  sequence : Option ℕ
  createdAt : CodeUnits
  deriving DecidableEq

/-- `activity.sequence ?? -1` -/
def ToolActivity.sequenceOrNone (activity : ToolActivity) : ℤ :=
  (activity.sequence.map Int.ofNat).getD (-1)

/-- The order of strings, by their code units. -/
def unitsLt (left right : CodeUnits) : Bool :=
  decide (left.map UInt16.toNat < right.map UInt16.toNat)

/-- The newest finished tool call. -/
def latestCompletedToolActivityId (activities : List ToolActivity) : Option String :=
  let latest := activities.foldl (fun latest activity ↦
    if activity.kind ≠ "tool.completed" then latest
    else
      match latest with
      | none => some activity
      | some best =>
        if activity.sequenceOrNone > best.sequenceOrNone ∨
            (activity.sequenceOrNone = best.sequenceOrNone ∧
              unitsLt best.createdAt activity.createdAt) then
          some activity
        else some best) none
  latest.map (·.id)

inductive SendPhase where
  | connecting
  | running
  | ready
  | disconnected
  deriving DecidableEq

def isQueuedMessageDue (message : QueuedComposerMessage δ) (phase : SendPhase)
    (latestToolActivityId : Option String) : Bool :=
  if message.holdUntilUserAction then false
  else if phase = .connecting then false
  else if phase ≠ .running then true
  else latestToolActivityId ≠ message.queuedAfterToolActivityId

/-! ## What the calls do to a queue -/

namespace QueuedMessageStore

variable {s : QueuedMessageStore δ} {threadKey : String}

theorem queue_setRemaining (remaining : List (QueuedComposerMessage δ)) :
    (s.setRemaining threadKey remaining).queue threadKey = remaining := by
  rw [setRemaining, queue]
  split
  next h => rw [OrderedMap.get_delete_self, List.eq_nil_of_length_eq_zero h, Option.getD_none]
  next => rw [OrderedMap.get_set_self, Option.getD_some]

theorem queue_setRemaining_of_ne {other : String} (h : other ≠ threadKey)
    (remaining : List (QueuedComposerMessage δ)) :
    (s.setRemaining threadKey remaining).queue other = s.queue other := by
  rw [setRemaining, queue]
  split
  next => rw [OrderedMap.get_delete_of_ne h, queue]
  next => rw [OrderedMap.get_set_of_ne h, queue]

theorem queue_enqueue (message : QueuedComposerMessage δ) :
    (s.enqueue threadKey message).queue threadKey = s.queue threadKey ++ [message] := by
  rw [enqueue, queue, OrderedMap.get_set_self, Option.getD_some]

theorem queue_enqueue_of_ne {other : String} (h : other ≠ threadKey)
    (message : QueuedComposerMessage δ) :
    (s.enqueue threadKey message).queue other = s.queue other := by
  rw [enqueue, queue, OrderedMap.get_set_of_ne h, queue]

theorem queue_holdAtFront (message : QueuedComposerMessage δ) :
    (s.holdAtFront threadKey message).queue threadKey =
      { message with holdUntilUserAction := true } ::
        (s.queue threadKey).filter fun entry ↦ entry.id ≠ message.id := by
  rw [holdAtFront, queue, OrderedMap.get_set_self, Option.getD_some]

theorem queue_holdAtFront_of_ne {other : String} (h : other ≠ threadKey)
    (message : QueuedComposerMessage δ) :
    (s.holdAtFront threadKey message).queue other = s.queue other := by
  rw [holdAtFront, queue, OrderedMap.get_set_of_ne h, queue]

end QueuedMessageStore

end Awen.Composer

/-!
## What Stop fences

The runs of the queue store. A message leaves a queue at most as often as it was put in, messages
that were never held leave a drained queue in the order in which they came, and a message that is
taken re-anchors those behind it.

The fence of Stop is the generation of the store: a send that took a message compares it with the
one it saw. `drain` returns early from a queue without messages, before it bumps the generation, so
the fence holds just when some drain since the message was taken found messages
(`drainGeneration_ne_iff`).
-/

namespace Awen.Composer

variable {δ : Type*}

/-- The calls of the store. -/
inductive QueueCall (δ : Type*) where
  | enqueue (threadKey : String) (message : QueuedComposerMessage δ)
  | take (threadKey id : String) (toolActivityId : Option String)
  | remove (threadKey id : String)
  | holdAtFront (threadKey : String) (message : QueuedComposerMessage δ)
  | drain (threadKey : String)
  deriving DecidableEq

namespace QueueCall

def threadKey : QueueCall δ → String
  | enqueue threadKey _ => threadKey
  | take threadKey _ _ => threadKey
  | remove threadKey _ => threadKey
  | holdAtFront threadKey _ => threadKey
  | drain threadKey => threadKey

/-- The messages that a call puts into the queue of its thread. -/
def puts : QueueCall δ → List (QueuedComposerMessage δ)
  | enqueue _ message => [message]
  | take _ _ _ => []
  | remove _ _ => []
  | holdAtFront _ message => [message]
  | drain _ => []

end QueueCall

namespace QueuedMessageStore

/-- A call, with the messages that it hands out. -/
def call (s : QueuedMessageStore δ) :
    QueueCall δ → QueuedMessageStore δ × List (QueuedComposerMessage δ)
  | .enqueue threadKey message => (s.enqueue threadKey message, [])
  | .take threadKey id toolActivityId =>
    ((s.take threadKey id toolActivityId).1, (s.take threadKey id toolActivityId).2.toList)
  | .remove threadKey id => ((s.remove threadKey id).1, (s.remove threadKey id).2.toList)
  | .holdAtFront threadKey message => (s.holdAtFront threadKey message, [])
  | .drain threadKey => s.drain threadKey

/-- The store after some calls. -/
def run (s : QueuedMessageStore δ) (calls : List (QueueCall δ)) : QueuedMessageStore δ :=
  calls.foldl (fun s call ↦ (s.call call).1) s

@[simp] theorem run_nil (s : QueuedMessageStore δ) : s.run [] = s := rfl

@[simp] theorem run_cons (s : QueuedMessageStore δ) (c : QueueCall δ)
    (calls : List (QueueCall δ)) : s.run (c :: calls) = (s.call c).1.run calls := rfl

theorem run_append (s : QueuedMessageStore δ) (before after : List (QueueCall δ)) :
    s.run (before ++ after) = (s.run before).run after := List.foldl_append

variable {s : QueuedMessageStore δ} {threadKey : String}

theorem take_of_find?_eq_none {id : String} {toolActivityId : Option String}
    (h : (s.queue threadKey).find? (fun message ↦ message.id = id) = none) :
    s.take threadKey id toolActivityId = (s, none) := by
  rw [take, h]

/-- A message that is taken re-anchors those that are left. -/
theorem take_of_find?_eq_some {id : String} {toolActivityId : Option String}
    {entry : QueuedComposerMessage δ}
    (h : (s.queue threadKey).find? (fun message ↦ message.id = id) = some entry) :
    (s.take threadKey id toolActivityId).2 = some entry ∧
      (s.take threadKey id toolActivityId).1.drainGeneration = s.drainGeneration ∧
      (s.take threadKey id toolActivityId).1.queue threadKey =
        ((s.queue threadKey).filter fun message ↦ message.id ≠ id).map fun message ↦
          { message with queuedAfterToolActivityId := toolActivityId } := by
  rw [take, h]
  refine ⟨rfl, rfl, ?_⟩
  rw [queue_setRemaining]
  refine List.map_congr_left fun message _ ↦ ?_
  split
  next hanchor => rw [← hanchor]
  next => rfl

theorem remove_of_find?_eq_none {id : String}
    (h : (s.queue threadKey).find? (fun message ↦ message.id = id) = none) :
    s.remove threadKey id = (s, none) := by
  rw [remove, h]

theorem remove_of_find?_eq_some {id : String} {entry : QueuedComposerMessage δ}
    (h : (s.queue threadKey).find? (fun message ↦ message.id = id) = some entry) :
    (s.remove threadKey id).2 = some entry ∧
      (s.remove threadKey id).1.queue threadKey =
        (s.queue threadKey).filter fun message ↦ message.id ≠ id := by
  rw [remove, h]
  exact ⟨rfl, queue_setRemaining _⟩

theorem queue_drain : (s.drain threadKey).1.queue threadKey = [] := by
  rw [drain]
  split
  next h => exact List.eq_nil_of_length_eq_zero h
  next => rw [queue, OrderedMap.get_delete_self, Option.getD_none]

/-- Draining hands out the whole queue. -/
theorem drain_snd : (s.drain threadKey).2 = s.queue threadKey := by
  rw [drain]
  split
  next h => exact (List.eq_nil_of_length_eq_zero h).symm
  next => rfl

/-- **A call leaves the queues of all other threads alone.** -/
theorem queue_call_of_ne (c : QueueCall δ) {other : String} (h : other ≠ c.threadKey) :
    (s.call c).1.queue other = s.queue other := by
  cases c with
  | enqueue threadKey message => exact queue_enqueue_of_ne h message
  | take threadKey id toolActivityId =>
    rw [call, take]
    split
    next => rfl
    next => exact queue_setRemaining_of_ne h _
  | remove threadKey id =>
    rw [call, remove]
    split
    next => rfl
    next => exact queue_setRemaining_of_ne h _
  | holdAtFront threadKey message => exact queue_holdAtFront_of_ne h message
  | drain threadKey =>
    rw [call, drain]
    split
    next => rfl
    next => exact congrArg (Option.getD · []) (OrderedMap.get_delete_of_ne h)

/-! ## Handed out at most once -/

/-- The ids of messages. -/
def ids (messages : List (QueuedComposerMessage δ)) : List String := messages.map (·.id)

@[simp] theorem ids_append (left right : List (QueuedComposerMessage δ)) :
    ids (left ++ right) = ids left ++ ids right := List.map_append

@[simp] theorem ids_reanchored (messages : List (QueuedComposerMessage δ))
    (toolActivityId : Option String) :
    ids (messages.map fun message ↦
      { message with queuedAfterToolActivityId := toolActivityId }) = ids messages := by
  rw [ids, List.map_map]
  rfl

/-- What is left of a queue and what is taken out of it were in the queue. -/
theorem ids_filter_subperm {messages : List (QueuedComposerMessage δ)} {id : String}
    {entry : QueuedComposerMessage δ}
    (h : messages.find? (fun message ↦ message.id = id) = some entry) :
    (ids (messages.filter fun message ↦ message.id ≠ id) ++ ids [entry]).Subperm
      (ids messages) := by
  have hid : decide (entry.id = id) = true := by simpa using List.find?_some h
  have hentry : entry ∈ messages.filter fun message ↦ message.id = id :=
    List.mem_filter.mpr ⟨List.mem_of_find?_eq_some h, hid⟩
  have hsub := (List.singleton_sublist.mpr hentry).subperm
  have hperm := List.filter_append_perm (fun message ↦ decide (message.id ≠ id)) messages
  have hfilter : messages.filter (fun message ↦ !decide (message.id ≠ id)) =
      messages.filter fun message ↦ message.id = id :=
    List.filter_congr fun message _ ↦ by simp
  rw [hfilter] at hperm
  rw [← ids_append]
  obtain ⟨kept, hkept, hsublist⟩ :=
    ((List.subperm_append_left _).mpr hsub).trans hperm.subperm
  exact ⟨ids kept, hkept.map _, hsublist.map _⟩

/-- **One call** moves messages from what is put in and what is queued to what is queued and what is
handed out. -/
theorem call_subperm (c : QueueCall δ) :
    (ids ((s.call c).1.queue c.threadKey) ++ ids (s.call c).2).Subperm
      (ids (s.queue c.threadKey) ++ ids c.puts) := by
  cases c with
  | enqueue threadKey message =>
    change (ids ((s.enqueue threadKey message).queue threadKey) ++ []).Subperm
      (ids (s.queue threadKey) ++ ids [message])
    rw [queue_enqueue, ids_append, List.append_nil]
  | take threadKey id toolActivityId =>
    change (ids ((s.take threadKey id toolActivityId).1.queue threadKey) ++
      ids (s.take threadKey id toolActivityId).2.toList).Subperm (ids (s.queue threadKey) ++ [])
    rw [List.append_nil]
    cases hfind : (s.queue threadKey).find? fun message ↦ message.id = id with
    | none =>
      rw [take_of_find?_eq_none hfind]
      exact (List.append_nil _).symm ▸ List.Subperm.refl _
    | some entry =>
      obtain ⟨hout, -, hqueue⟩ := take_of_find?_eq_some hfind
      rw [hout, hqueue, ids_reanchored]
      exact ids_filter_subperm hfind
  | remove threadKey id =>
    change (ids ((s.remove threadKey id).1.queue threadKey) ++
      ids (s.remove threadKey id).2.toList).Subperm (ids (s.queue threadKey) ++ [])
    rw [List.append_nil]
    cases hfind : (s.queue threadKey).find? fun message ↦ message.id = id with
    | none =>
      rw [remove_of_find?_eq_none hfind]
      exact (List.append_nil _).symm ▸ List.Subperm.refl _
    | some entry =>
      obtain ⟨hout, hqueue⟩ := remove_of_find?_eq_some hfind
      rw [hout, hqueue]
      exact ids_filter_subperm hfind
  | holdAtFront threadKey message =>
    change (ids ((s.holdAtFront threadKey message).queue threadKey) ++ []).Subperm
      (ids (s.queue threadKey) ++ ids [message])
    rw [queue_holdAtFront, List.append_nil]
    have hrest : (ids ((s.queue threadKey).filter fun entry ↦ entry.id ≠ message.id)).Subperm
        (ids (s.queue threadKey)) := (List.filter_sublist.map _).subperm
    exact ((List.subperm_cons message.id).mpr hrest).trans
      (List.perm_append_singleton _ _).symm.subperm
  | drain threadKey =>
    change (ids ((s.drain threadKey).1.queue threadKey) ++ ids (s.drain threadKey).2).Subperm
      (ids (s.queue threadKey) ++ [])
    rw [queue_drain, drain_snd, List.append_nil]
    exact List.Subperm.refl _

/-- What the calls for a thread hand out. -/
def handedOut (threadKey : String) :
    QueuedMessageStore δ → List (QueueCall δ) → List (QueuedComposerMessage δ)
  | _, [] => []
  | s, c :: calls =>
    (if c.threadKey = threadKey then (s.call c).2 else []) ++ handedOut threadKey (s.call c).1 calls

/-- What calls put into the queue of a thread. -/
def putInto (threadKey : String) (calls : List (QueueCall δ)) : List (QueuedComposerMessage δ) :=
  (calls.filter fun c ↦ c.threadKey = threadKey).flatMap QueueCall.puts

/-- **Nothing is handed out more often than it was put in.** -/
theorem count_handedOut_le (threadKey id : String) (s : QueuedMessageStore δ)
    (calls : List (QueueCall δ)) :
    (ids ((s.run calls).queue threadKey)).count id + (ids (handedOut threadKey s calls)).count id ≤
      (ids (s.queue threadKey)).count id + (ids (putInto threadKey calls)).count id := by
  induction calls generalizing s with
  | nil => exact le_rfl
  | cons c calls ih =>
    have ih := ih (s.call c).1
    rw [run_cons, handedOut, putInto]
    by_cases hthread : c.threadKey = threadKey
    · subst hthread
      rw [if_pos rfl, List.filter_cons_of_pos (by simp), List.flatMap_cons, ids_append, ids_append,
        ← putInto, List.count_append, List.count_append]
      have hstep := (call_subperm (s := s) c).count_le id
      rw [List.count_append, List.count_append] at hstep
      omega
    · rw [queue_call_of_ne c (Ne.symm hthread)] at ih
      rw [if_neg hthread, List.filter_cons_of_neg (by simpa using hthread), List.nil_append,
        ← putInto]
      exact ih

/-! ## The order of a queue -/

/-- What a call enqueues for a thread. -/
def enqueuedBy (threadKey : String) : QueueCall δ → List (QueuedComposerMessage δ)
  | .enqueue other message => if other = threadKey then [message] else []
  | _ => []

/-- What a call holds for a thread. -/
def heldBy (threadKey : String) : QueueCall δ → List (QueuedComposerMessage δ)
  | .holdAtFront other message => if other = threadKey then [message] else []
  | _ => []

/-- One call keeps the order of the messages that it does not hold. -/
theorem call_sublist (threadKey : String) (c : QueueCall δ) :
    ((ids ((s.call c).1.queue threadKey)).filter fun id ↦ id ∉ ids (heldBy threadKey c)).Sublist
      (ids (s.queue threadKey) ++ ids (enqueuedBy threadKey c)) := by
  have hkept {left right : List String} (p : String → Bool) (h : left.Sublist right) :
      (left.filter p).Sublist (right ++ []) :=
    (List.append_nil right).symm ▸ List.filter_sublist.trans h
  by_cases hthread : threadKey = c.threadKey
  · subst hthread
    cases c with
    | enqueue threadKey message =>
      change List.Sublist (List.filter _ (ids ((s.enqueue threadKey message).queue threadKey)))
        (ids (s.queue threadKey) ++ ids (if threadKey = threadKey then [message] else []))
      rw [queue_enqueue, if_pos rfl, ids_append]
      exact List.filter_sublist
    | take threadKey id toolActivityId =>
      refine hkept _ ?_
      change (ids ((s.take threadKey id toolActivityId).1.queue threadKey)).Sublist
        (ids (s.queue threadKey))
      cases hfind : (s.queue threadKey).find? fun message ↦ message.id = id with
      | none => rw [take_of_find?_eq_none hfind]
      | some entry =>
        rw [(take_of_find?_eq_some hfind).2.2, ids_reanchored]
        exact List.filter_sublist.map _
    | remove threadKey id =>
      refine hkept _ ?_
      change (ids ((s.remove threadKey id).1.queue threadKey)).Sublist (ids (s.queue threadKey))
      cases hfind : (s.queue threadKey).find? fun message ↦ message.id = id with
      | none => rw [remove_of_find?_eq_none hfind]
      | some entry =>
        rw [(remove_of_find?_eq_some hfind).2]
        exact List.filter_sublist.map _
    | holdAtFront threadKey message =>
      change List.Sublist (List.filter (fun id ↦ id ∉ ids
        (if threadKey = threadKey then [message] else []))
        (ids ((s.holdAtFront threadKey message).queue threadKey))) (ids (s.queue threadKey) ++ [])
      rw [queue_holdAtFront, if_pos rfl, List.append_nil]
      have hrest : (ids ((s.queue threadKey).filter fun entry ↦ entry.id ≠ message.id)).Sublist
          (ids (s.queue threadKey)) := List.filter_sublist.map _
      have hfirst : ¬decide (message.id ∉ ids [message]) = true := by simp [ids]
      change (List.filter (fun id ↦ decide (id ∉ ids [message])) (message.id ::
        ids ((s.queue threadKey).filter fun entry ↦ entry.id ≠ message.id))).Sublist _
      rw [List.filter_cons_of_neg (p := fun id ↦ decide (id ∉ ids [message])) hfirst]
      exact List.filter_sublist.trans hrest
    | drain threadKey =>
      refine hkept _ ?_
      change (ids ((s.drain threadKey).1.queue threadKey)).Sublist (ids (s.queue threadKey))
      rw [queue_drain]
      exact List.nil_sublist _
  · rw [queue_call_of_ne c hthread]
    exact List.filter_sublist.trans (List.sublist_append_left _ _)

/-- **Messages that were never held stay in the order in which they were enqueued.** -/
theorem queue_sublist_enqueued (threadKey : String) (calls : List (QueueCall δ)) :
    ((ids ((empty.run calls).queue threadKey)).filter fun id ↦
      id ∉ ids (calls.flatMap (heldBy threadKey))).Sublist
        (ids (calls.flatMap (enqueuedBy threadKey))) := by
  induction calls using List.reverseRecOn with
  | nil => exact List.nil_sublist _
  | append_singleton calls c ih =>
    have hstep := (call_sublist (s := empty.run calls) threadKey c).filter
      fun id ↦ decide (id ∉ ids (calls.flatMap (heldBy threadKey)))
    rw [List.filter_filter, List.filter_append] at hstep
    rw [run_append, run_cons, run_nil, List.flatMap_append, List.flatMap_append,
      List.flatMap_singleton, List.flatMap_singleton, ids_append, ids_append]
    have hnever : ∀ id, decide (id ∉ ids (calls.flatMap (heldBy threadKey)) ++
        ids (heldBy threadKey c)) = (decide (id ∉ ids (calls.flatMap (heldBy threadKey))) &&
          decide (id ∉ ids (heldBy threadKey c))) := by
      intro id
      simp [List.mem_append, not_or]
    simp only [hnever]
    exact hstep.trans (ih.append List.filter_sublist)

/-! ## The generation -/

/-- Whether a call bumps the generation: a drain that finds messages. -/
def Drains (s : QueuedMessageStore δ) (c : QueueCall δ) : Prop :=
  ∃ threadKey, c = .drain threadKey ∧ s.queue threadKey ≠ []

/-- **Only a drain that finds messages bumps the generation.** -/
theorem drainGeneration_call (c : QueueCall δ) :
    (Drains s c ∧ (s.call c).1.drainGeneration = s.drainGeneration + 1) ∨
      (¬Drains s c ∧ (s.call c).1.drainGeneration = s.drainGeneration) := by
  cases c with
  | enqueue threadKey message => exact .inr ⟨fun h ↦ (nomatch h.choose_spec.1), rfl⟩
  | take threadKey id toolActivityId =>
    refine .inr ⟨fun h ↦ (nomatch h.choose_spec.1), ?_⟩
    change (s.take threadKey id toolActivityId).1.drainGeneration = s.drainGeneration
    rw [take]
    split <;> rfl
  | remove threadKey id =>
    refine .inr ⟨fun h ↦ (nomatch h.choose_spec.1), ?_⟩
    change (s.remove threadKey id).1.drainGeneration = s.drainGeneration
    rw [remove]
    split <;> rfl
  | holdAtFront threadKey message => exact .inr ⟨fun h ↦ (nomatch h.choose_spec.1), rfl⟩
  | drain threadKey =>
    by_cases hqueue : s.queue threadKey = []
    · refine .inr ⟨fun ⟨other, hcall, hne⟩ ↦ ?_, ?_⟩
      · obtain rfl := QueueCall.drain.inj hcall
        exact hne hqueue
      · rw [call, drain, hqueue]
        rfl
    · refine .inl ⟨⟨threadKey, rfl, hqueue⟩, ?_⟩
      have hlength : ¬(s.queue threadKey).length = 0 := by
        simpa [List.length_eq_zero_iff] using hqueue
      rw [call, drain, if_neg hlength]

theorem drainGeneration_le_run (s : QueuedMessageStore δ) (calls : List (QueueCall δ)) :
    s.drainGeneration ≤ (s.run calls).drainGeneration := by
  induction calls generalizing s with
  | nil => exact le_rfl
  | cons c calls ih =>
    have ih := ih (s.call c).1
    rw [run_cons]
    rcases drainGeneration_call (s := s) c with ⟨-, h⟩ | ⟨-, h⟩
    · omega
    · omega

/-- **The generation has changed** just when some drain found messages. -/
theorem drainGeneration_ne_iff (s : QueuedMessageStore δ) (calls : List (QueueCall δ)) :
    (s.run calls).drainGeneration ≠ s.drainGeneration ↔
      ∃ before c after, calls = before ++ c :: after ∧ Drains (s.run before) c := by
  induction calls generalizing s with
  | nil =>
    refine iff_of_false (fun h ↦ h rfl) ?_
    rintro ⟨before, c, after, h, -⟩
    exact absurd h (by simp)
  | cons c calls ih =>
    have ih := ih (s.call c).1
    rcases drainGeneration_call (s := s) c with ⟨hdrains, h⟩ | ⟨hdrains, h⟩
    · have hle := drainGeneration_le_run (s.call c).1 calls
      refine iff_of_true ?_ ⟨[], c, calls, rfl, hdrains⟩
      rw [run_cons]
      omega
    · rw [run_cons, ← h, ih]
      constructor
      · rintro ⟨before, d, after, rfl, hd⟩
        exact ⟨c :: before, d, after, rfl, hd⟩
      · rintro ⟨before, d, after, hcalls, hd⟩
        cases before with
        | nil =>
          obtain ⟨rfl, rfl⟩ := List.cons.inj hcalls
          exact absurd hd hdrains
        | cons first before =>
          obtain ⟨rfl, rfl⟩ := List.cons.inj hcalls
          exact ⟨before, d, after, rfl, hd⟩

/-! ## One message at each boundary -/

/-- **After a take nothing else is due** at the same boundary, where the message was queued. -/
theorem take_due_iff (s : QueuedMessageStore δ) (threadKey id : String)
    (toolActivityId : Option String) :
    (∀ message ∈ (s.take threadKey id toolActivityId).1.queue threadKey,
      isQueuedMessageDue message .running toolActivityId = false) ↔
    (∃ message ∈ s.queue threadKey, message.id = id) ∨
      ∀ message ∈ s.queue threadKey,
        isQueuedMessageDue message .running toolActivityId = false := by
  cases hfind : (s.queue threadKey).find? fun message ↦ message.id = id with
  | none =>
    rw [take_of_find?_eq_none hfind]
    refine ⟨.inr, fun h ↦ h.elim (fun ⟨message, hmem, hid⟩ ↦ ?_) fun h ↦ h⟩
    exact absurd (List.find?_eq_none.mp hfind message hmem) (by simp [hid])
  | some entry =>
    refine iff_of_true ?_ (.inl ⟨entry, List.mem_of_find?_eq_some hfind, ?_⟩)
    · rw [(take_of_find?_eq_some hfind).2.2]
      intro message hmem
      obtain ⟨waiting, -, rfl⟩ := List.mem_map.mp hmem
      simp [isQueuedMessageDue]
    · simpa using List.find?_some hfind

end QueuedMessageStore

/-! ## The newest finished tool call -/

/-- The rank of an activity: its sequence, then its time. -/
def ToolActivity.rank (activity : ToolActivity) : ℤ ×ₗ List ℕ :=
  toLex (activity.sequenceOrNone, activity.createdAt.map UInt16.toNat)

theorem latestCompletedToolActivityId_eq (activities : List ToolActivity) :
    latestCompletedToolActivityId activities =
      ((activities.filter fun activity ↦ activity.kind = "tool.completed").argmax
        ToolActivity.rank).map (·.id) := by
  rw [latestCompletedToolActivityId, ← foldl_greater?_filter_eq_argmax]
  congr 2
  funext latest activity
  by_cases hkind : activity.kind = "tool.completed"
  · rw [if_neg (not_not.mpr hkind)]
    cases latest with
    | none => simp [hkind]
    | some best =>
      have hlt : best.rank < activity.rank ↔
          activity.sequenceOrNone > best.sequenceOrNone ∨
            activity.sequenceOrNone = best.sequenceOrNone ∧
              unitsLt best.createdAt activity.createdAt = true := by
        rw [ToolActivity.rank, ToolActivity.rank, Prod.Lex.toLex_lt_toLex, unitsLt,
          decide_eq_true_iff, gt_iff_lt, @eq_comm _ activity.sequenceOrNone]
      simp [hkind, ← hlt]
  · rw [if_pos hkind]
    simp [hkind]

theorem ToolActivity.eq_of_rank_eq {a b : ToolActivity} (h : a.rank = b.rank) :
    a.sequence = b.sequence ∧ a.createdAt = b.createdAt := by
  obtain ⟨hsequence, hcreated⟩ := Prod.mk.inj (toLex.injective h)
  refine ⟨?_, List.map_injective_iff.mpr (fun u v h ↦ UInt16.toNat_inj.mp h) hcreated⟩
  rw [sequenceOrNone, sequenceOrNone] at hsequence
  cases ha : a.sequence with
  | none =>
    cases hb : b.sequence with
    | none => rfl
    | some n =>
      rw [ha, hb] at hsequence
      have : (-1 : ℤ) = n := hsequence
      omega
  | some m =>
    cases hb : b.sequence with
    | none =>
      rw [ha, hb] at hsequence
      have : (m : ℤ) = -1 := hsequence
      omega
    | some n =>
      rw [ha, hb] at hsequence
      have : (m : ℤ) = n := hsequence
      congr 1
      omega

/-- **The newest finished tool call** does not depend on the order of the activities. -/
theorem latestCompletedToolActivityId_perm {activities others : List ToolActivity}
    (hperm : activities.Perm others)
    (hdistinct : (activities.map fun activity ↦
      (activity.sequence, activity.createdAt)).Nodup) :
    latestCompletedToolActivityId activities = latestCompletedToolActivityId others := by
  rw [latestCompletedToolActivityId_eq, latestCompletedToolActivityId_eq]
  refine congrArg _ (argmax_eq_of_perm (hperm.filter _) fun a ha b hb hrank ↦ ?_)
  obtain ⟨hsequence, hcreated⟩ := ToolActivity.eq_of_rank_eq hrank
  exact List.inj_on_of_nodup_map hdistinct (List.mem_of_mem_filter ha) (List.mem_of_mem_filter hb)
    (Prod.ext hsequence hcreated)

open QueuedMessageStore

/-- **What Stop fences.** Nothing is handed out more often than it was put in, calls for one thread
leave all others alone, messages that were never held leave in order, a take leaves nothing due at
its boundary just when its message was queued or nothing was due before, and the generation that a
take saw has changed for good after a drain of its thread just when some drain since found messages.
The newest finished tool call does not depend on the order of the activities. -/
theorem stopFences_iff :
    (∀ (calls : List (QueueCall δ)) (threadKey id : String),
      (ids (handedOut threadKey empty calls)).count id ≤
        (ids (putInto threadKey calls)).count id) ∧
    (∀ (s : QueuedMessageStore δ) (c : QueueCall δ) (other : String), other ≠ c.threadKey →
      (s.call c).1.queue other = s.queue other) ∧
    (∀ (calls : List (QueueCall δ)) (threadKey : String),
      ((ids ((empty.run calls).drain threadKey).2).filter fun id ↦
        id ∉ ids (calls.flatMap (heldBy threadKey))).Sublist
          (ids (calls.flatMap (enqueuedBy threadKey)))) ∧
    (∀ (s : QueuedMessageStore δ) (threadKey id : String) (toolActivityId : Option String),
      (∀ message ∈ (s.take threadKey id toolActivityId).1.queue threadKey,
        isQueuedMessageDue message .running toolActivityId = false) ↔
      (∃ message ∈ s.queue threadKey, message.id = id) ∨
        ∀ message ∈ s.queue threadKey,
          isQueuedMessageDue message .running toolActivityId = false) ∧
    (∀ (s : QueuedMessageStore δ) (threadKey id : String) (toolActivityId : Option String)
      (between : List (QueueCall δ)), (s.take threadKey id toolActivityId).2.isSome = true →
      ((∀ after, (s.run (.take threadKey id toolActivityId :: between ++
          .drain threadKey :: after)).drainGeneration ≠ s.drainGeneration) ↔
        ∃ earlier c later, between ++ [.drain threadKey] = earlier ++ c :: later ∧
          Drains (s.run (.take threadKey id toolActivityId :: earlier)) c)) ∧
    ∀ activities others : List ToolActivity, activities.Perm others →
      (activities.map fun activity ↦ (activity.sequence, activity.createdAt)).Nodup →
      latestCompletedToolActivityId activities = latestCompletedToolActivityId others := by
  refine ⟨fun calls threadKey id ↦ ?_, fun s c other ↦ queue_call_of_ne c,
    fun calls threadKey ↦ ?_, take_due_iff, fun s threadKey id toolActivityId between htaken ↦ ?_,
    fun _ _ ↦ latestCompletedToolActivityId_perm⟩
  · have hcount := count_handedOut_le threadKey id empty calls
    have hempty : ids ((empty : QueuedMessageStore δ).queue threadKey) = [] := rfl
    rw [hempty, List.count_nil, Nat.zero_add] at hcount
    exact (Nat.le_add_left _ _).trans hcount
  · rw [drain_snd]
    exact queue_sublist_enqueued threadKey calls
  · set taken := (s.call (.take threadKey id toolActivityId)).1
    have hgeneration : taken.drainGeneration = s.drainGeneration := by
      rcases drainGeneration_call (s := s) (.take threadKey id toolActivityId) with ⟨h, -⟩ | ⟨-, h⟩
      · exact nomatch h.choose_spec.1
      · exact h
    have hiff := drainGeneration_ne_iff taken (between ++ [.drain threadKey])
    have hle := drainGeneration_le_run taken (between ++ [.drain threadKey])
    rw [hgeneration] at hiff hle
    have hrun : ∀ after, s.run (.take threadKey id toolActivityId :: between ++
        .drain threadKey :: after) = (taken.run (between ++ [.drain threadKey])).run after := by
      intro after
      rw [← run_append, List.append_assoc]
      rfl
    constructor
    · intro hchanged
      have hnow := hchanged []
      rw [hrun, run_nil] at hnow
      exact hiff.mp hnow
    · intro hdrains after
      have hnow := hiff.mpr hdrains
      have hlater := drainGeneration_le_run (taken.run (between ++ [.drain threadKey])) after
      rw [hrun]
      omega

/-! ## A stop on an empty queue -/

/-- **A drain that finds the queue empty** does not fence the message that was taken before it. -/
theorem not_drainGeneration_ne_of_empty :
    ¬∀ (s : QueuedMessageStore Unit) (threadKey id : String) (toolActivityId : Option String)
      (between after : List (QueueCall Unit)),
      (s.take threadKey id toolActivityId).2.isSome = true →
        (s.run (.take threadKey id toolActivityId :: between ++
          .drain threadKey :: after)).drainGeneration ≠ s.drainGeneration := by
  intro h
  refine h (empty.run [.enqueue "thread" ⟨"first", (), none, false⟩]) "thread" "first" none [] []
    (by decide) (by decide)

/-- A queue of two messages. -/
private def twoQueued : QueuedMessageStore Unit :=
  empty.run [.enqueue "thread" ⟨"first", (), none, false⟩,
    .enqueue "thread" ⟨"second", (), none, false⟩]

/-- Where another message was left, the drain fences the one that was taken. -/
theorem stopFences_iff_twoQueued :
    (twoQueued.run (.take "thread" "first" none :: [] ++
      .drain "thread" :: [])).drainGeneration ≠ twoQueued.drainGeneration :=
  (stopFences_iff.2.2.2.2.1 twoQueued "thread" "first" none [] (by decide)).mpr
    ⟨[], .drain "thread", [], rfl, "thread", rfl, by decide⟩ []

end Awen.Composer
