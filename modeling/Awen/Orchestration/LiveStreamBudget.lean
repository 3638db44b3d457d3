import Mathlib.Algebra.BigOperators.Group.List.Basic
import Mathlib.Algebra.Order.Group.Int
import Mathlib.Data.List.Nodup
import Mathlib.Tactic.Ring
import Awen.Library.Runs

/-!
# The budget of a live stream

What is held for a subscriber counts against a budget, from when it is retained until its delivery
is known to have ended. The set of what is retained and the total of its sizes are kept side by
side.

The total is right as long as no call of `replace` names a retained item twice: `replace` takes the
size of each item it is given off the total, however often it is given.
-/

namespace Awen.Orchestration

/-! ## The budget -/

def liveStreamMaxItems : ℕ := 1000

def liveStreamMaxSerializedBytes : ℕ := 8 * 1024 * 1024

structure LiveStreamLimits where
  maxItems : ℕ := liveStreamMaxItems
  maxSerializedBytes : ℕ := liveStreamMaxSerializedBytes

/-- An item that is retained; `id` tells it from others like it. -/
structure RetainedLiveItem (α : Type) where
  id : ℕ
  value : α
  serializedBytes : ℕ
  deriving DecidableEq

structure OrchestrationGetSnapshotError where
  message : String
  deriving DecidableEq

def liveEventBufferFull : OrchestrationGetSnapshotError where
  message := "The live event buffer is full. Resume from the last received sequence."

/-- **The budget**, and what each of the streams that it covers is delivering. -/
structure LiveStreamBudget (α : Type) where
  limits : LiveStreamLimits := {}
  retained : List (RetainedLiveItem α) := []
  retainedSerializedBytes : ℤ := 0
  failure : Option OrchestrationGetSnapshotError := none
  nextId : ℕ := 0
  inFlight : List (List (RetainedLiveItem α)) := []

namespace LiveStreamBudget

variable {α β : Type} [DecidableEq α] (serializedSize : β → ℕ)

/-- The sizes of items. -/
def total (items : List (RetainedLiveItem α)) : ℤ :=
  (items.map fun item ↦ (item.serializedBytes : ℤ)).sum

def releaseItem (s : LiveStreamBudget α) (item : RetainedLiveItem α) : LiveStreamBudget α :=
  if item ∈ s.retained then
    { s with
      retained := s.retained.erase item
      retainedSerializedBytes := s.retainedSerializedBytes - item.serializedBytes }
  else s

def release (s : LiveStreamBudget α) (items : List (RetainedLiveItem α)) : LiveStreamBudget α :=
  items.foldl releaseItem s

/-- The budget fails once and for all. -/
def overflow (s : LiveStreamBudget α) : OrchestrationGetSnapshotError × LiveStreamBudget α :=
  let failure := s.failure.getD liveEventBufferFull
  (failure, { s with failure := some failure })

/-- So many items of so many bytes are beyond the limits. -/
def Exceeds (s : LiveStreamBudget α) (items serializedBytes : ℤ) : Prop :=
  (s.limits.maxItems : ℤ) < items ∨ (s.limits.maxSerializedBytes : ℤ) < serializedBytes

instance (s : LiveStreamBudget α) (items serializedBytes : ℤ) :
    Decidable (s.Exceeds items serializedBytes) :=
  inferInstanceAs (Decidable (_ ∨ _))

/-- Items for values with their payloads, numbered from the next id on. -/
def newItems (nextId : ℕ) : List (α × β) → List (RetainedLiveItem α)
  | [] => []
  | (value, payload) :: values =>
    ⟨nextId, value, serializedSize payload⟩ :: newItems (nextId + 1) values

def retain (s : LiveStreamBudget α) (value : α) (payload : β) :
    Except OrchestrationGetSnapshotError (RetainedLiveItem α) × LiveStreamBudget α :=
  match s.failure with
  | some failure => (.error failure, s)
  | none =>
    let serializedBytes := serializedSize payload
    let nextItems : ℤ := s.retained.length + 1
    let nextSerializedBytes := s.retainedSerializedBytes + serializedBytes
    if s.Exceeds nextItems nextSerializedBytes then s.overflow.map .error id
    else
      let item := ⟨s.nextId, value, serializedBytes⟩
      (.ok item, { s with
        retained := s.retained ++ [item]
        retainedSerializedBytes := nextSerializedBytes
        nextId := s.nextId + 1 })

/-- The items and the bytes that would be left if those given were released. -/
def withoutPrevious (s : LiveStreamBudget α) (items serializedBytes : ℤ) :
    List (RetainedLiveItem α) → ℤ × ℤ :=
  List.foldl
    (fun next item ↦
      if item ∈ s.retained then (next.1 - 1, next.2 - item.serializedBytes) else next)
    (items, serializedBytes)

def replace (s : LiveStreamBudget α) (previous : List (RetainedLiveItem α))
    (values : List (α × β)) :
    Except OrchestrationGetSnapshotError (List (RetainedLiveItem α)) × LiveStreamBudget α :=
  match s.failure with
  | some failure => (.error failure, s)
  | none =>
    let next := newItems serializedSize s.nextId values
    let (nextItems, nextSerializedBytes) := s.withoutPrevious (s.retained.length + next.length)
      (s.retainedSerializedBytes + total next) previous
    if s.Exceeds nextItems nextSerializedBytes then s.overflow.map .error id
    else
      (.ok next, { s.release previous with
        retained := (s.release previous).retained ++ next
        retainedSerializedBytes := nextSerializedBytes
        nextId := s.nextId + next.length })

/-! ## Deliveries -/

/-- What happens to a budget: a call, a step of the delivery of one of its streams, or its end. -/
inductive BudgetStep (α β : Type)
  | retain (value : α) (payload : β)
  | replace (previous : List (RetainedLiveItem α)) (values : List (α × β))
  | release (items : List (RetainedLiveItem α))
  | deliveryOpened
  | pullStarted (i : ℕ)
  | pullReturned (i : ℕ) (items : List (RetainedLiveItem α))
  | failureNoticed (i : ℕ)
  | deliveryClosed (i : ℕ)
  | closed

/-- The client has acknowledged what was delivered. -/
def acknowledge (s : LiveStreamBudget α) (i : ℕ) : LiveStreamBudget α :=
  { s.release (s.inFlight.getD i []) with inFlight := s.inFlight.set i [] }

/-- **One step.** Once the budget has failed, a delivery releases all but what it has in flight, and
nothing more is delivered. -/
def step (s : LiveStreamBudget α) : BudgetStep α β → LiveStreamBudget α
  | .retain value payload => (s.retain serializedSize value payload).2
  | .replace previous values => (s.replace serializedSize previous values).2
  | .release items => s.release items
  | .deliveryOpened =>
    if s.failure.isSome then s else { s with inFlight := s.inFlight ++ [[]] }
  | .pullStarted i => s.acknowledge i
  | .pullReturned i items => { s with inFlight := s.inFlight.set i items }
  | .failureNoticed i =>
    if s.failure.isSome then s.release (s.retained.filter (· ∉ s.inFlight.getD i [])) else s
  | .deliveryClosed i => s.acknowledge i
  | .closed => s.release s.retained

/-! ## The accounting -/

omit [DecidableEq α] in
@[simp] theorem total_append (items more : List (RetainedLiveItem α)) :
    total (items ++ more) = total items + total more := by
  simp [total]

theorem total_erase {items : List (RetainedLiveItem α)} {item : RetainedLiveItem α}
    (h : item ∈ items) : total (items.erase item) = total items - item.serializedBytes := by
  induction items with
  | nil => exact absurd h List.not_mem_nil
  | cons other items ih =>
    by_cases hother : other = item
    · subst hother
      simp [total]
    · have hmem : item ∈ items := (List.mem_cons.mp h).resolve_left (Ne.symm hother)
      rw [List.erase_cons_tail (by simpa using hother)]
      simp only [total, List.map_cons, List.sum_cons] at ih ⊢
      rw [ih hmem, add_sub_assoc]

variable {serializedSize} {s : LiveStreamBudget α}

/-- What the budget keeps of its items: no item twice, all of them its own, and their total. -/
structure Sums (s : LiveStreamBudget α) : Prop where
  nodup : s.retained.Nodup
  old : ∀ item ∈ s.retained, item.id < s.nextId
  total : s.retainedSerializedBytes = LiveStreamBudget.total s.retained

/-- The budget keeps within its limits. -/
structure Within (s : LiveStreamBudget α) : Prop where
  items : s.retained.length ≤ s.limits.maxItems
  bytes : s.retainedSerializedBytes ≤ s.limits.maxSerializedBytes

/-- A step leaves some of the items, and not more bytes. -/
structure Less (s s' : LiveStreamBudget α) : Prop where
  retained : s'.retained.Sublist s.retained
  bytes : s'.retainedSerializedBytes ≤ s.retainedSerializedBytes
  limits : s'.limits = s.limits
  nextId : s'.nextId = s.nextId
  failure : s'.failure = s.failure

omit [DecidableEq α] in
theorem Less.refl (s : LiveStreamBudget α) : Less s s :=
  ⟨List.Sublist.refl _, le_rfl, rfl, rfl, rfl⟩

omit [DecidableEq α] in
theorem Less.trans {s' s'' : LiveStreamBudget α} (h : Less s s') (h' : Less s' s'') : Less s s'' :=
  ⟨h'.retained.trans h.retained, h'.bytes.trans h.bytes, h'.limits.trans h.limits,
    h'.nextId.trans h.nextId, h'.failure.trans h.failure⟩

omit [DecidableEq α] in
theorem Less.within {s' : LiveStreamBudget α} (h : Less s s') (hs : s.Within) : s'.Within :=
  ⟨h.limits ▸ h.retained.length_le.trans hs.items, h.limits ▸ h.bytes.trans hs.bytes⟩

theorem less_releaseItem (s : LiveStreamBudget α) (item : RetainedLiveItem α) :
    Less s (s.releaseItem item) := by
  unfold releaseItem
  split
  · refine ⟨List.erase_sublist, ?_, rfl, rfl, rfl⟩
    exact sub_le_self _ (Int.natCast_nonneg _)
  · exact Less.refl s

theorem Sums.releaseItem (h : s.Sums) (item : RetainedLiveItem α) : (s.releaseItem item).Sums := by
  unfold LiveStreamBudget.releaseItem
  split
  · rename_i hmem
    refine ⟨h.nodup.erase item, fun other hother ↦ h.old other (List.mem_of_mem_erase hother), ?_⟩
    rw [total_erase hmem, h.total]
  · exact h

theorem less_release (s : LiveStreamBudget α) (items : List (RetainedLiveItem α)) :
    Less s (s.release items) := by
  induction items generalizing s with
  | nil => exact Less.refl s
  | cons item items ih => exact (less_releaseItem s item).trans (ih _)

theorem Sums.release (h : s.Sums) (items : List (RetainedLiveItem α)) : (s.release items).Sums := by
  induction items generalizing s with
  | nil => exact h
  | cons item items ih => exact ih (h.releaseItem item)

/-- An item that is released is not retained, so a second release finds nothing. -/
theorem release_twice (h : s.Sums) {items : List (RetainedLiveItem α)} {item : RetainedLiveItem α}
    (hmem : item ∈ items) : (s.release items).release [item] = s.release items := by
  have hgone : item ∉ (s.release items).retained := by
    induction items generalizing s with
    | nil => exact absurd hmem List.not_mem_nil
    | cons other items ih =>
      rcases List.mem_cons.mp hmem with rfl | hrest
      · intro hstill
        have hstill' := (less_release (s.releaseItem item) items).retained.subset hstill
        unfold releaseItem at hstill'
        split at hstill'
        · exact absurd hstill' h.nodup.not_mem_erase
        · rename_i hnot
          exact hnot hstill'
      · exact ih (h.releaseItem other) hrest
  exact if_neg hgone

/-! ## New items -/

omit [DecidableEq α] in
theorem length_newItems (nextId : ℕ) (values : List (α × β)) :
    (newItems serializedSize nextId values).length = values.length := by
  induction values generalizing nextId with
  | nil => rfl
  | cons value values ih => simp [newItems, ih]

omit [DecidableEq α] in
theorem id_of_mem_newItems {nextId : ℕ} {values : List (α × β)} {item : RetainedLiveItem α}
    (h : item ∈ newItems serializedSize nextId values) :
    nextId ≤ item.id ∧ item.id < nextId + values.length := by
  induction values generalizing nextId with
  | nil => exact absurd h List.not_mem_nil
  | cons value values ih =>
    rw [List.length_cons]
    rcases List.mem_cons.mp h with rfl | hrest
    · exact ⟨le_rfl, Nat.lt_add_of_pos_right (Nat.succ_pos _)⟩
    · have := ih hrest
      omega

omit [DecidableEq α] in
theorem nodup_newItems (nextId : ℕ) (values : List (α × β)) :
    (newItems serializedSize nextId values).Nodup := by
  induction values generalizing nextId with
  | nil => exact List.nodup_nil
  | cons value values ih =>
    refine List.nodup_cons.mpr ⟨fun hmem ↦ ?_, ih (nextId + 1)⟩
    exact absurd (id_of_mem_newItems hmem).1 (Nat.not_succ_le_self _)

omit [DecidableEq α] in
/-- Fresh items are added to those that are retained. -/
theorem Sums.add (h : s.Sums) (values : List (α × β)) {bytes : ℤ}
    (hbytes : bytes = LiveStreamBudget.total s.retained +
      LiveStreamBudget.total (newItems serializedSize s.nextId values)) :
    Sums { s with
      retained := s.retained ++ newItems serializedSize s.nextId values
      retainedSerializedBytes := bytes
      nextId := s.nextId + values.length } where
  nodup := by
    refine List.nodup_append.mpr ⟨h.nodup, nodup_newItems _ _, fun item hitem other hother ↦ ?_⟩
    rintro rfl
    have := h.old item hitem
    have := (id_of_mem_newItems hother).1
    omega
  old item hitem := by
    rcases List.mem_append.mp hitem with hold | hnew
    · exact Nat.lt_add_right _ (h.old item hold)
    · exact (id_of_mem_newItems hnew).2
  total := by rw [hbytes, total_append]

/-! ## Calls -/

omit [DecidableEq α] in
theorem within_of_not_exceeds {items : List (RetainedLiveItem α)} {bytes : ℤ} {nextId : ℕ}
    (h : ¬s.Exceeds items.length bytes) :
    Within { s with retained := items, retainedSerializedBytes := bytes, nextId } where
  items := by
    have := not_lt.mp fun hlt ↦ h (.inl hlt)
    exact_mod_cast this
  bytes := not_lt.mp fun hlt ↦ h (.inr hlt)

/-- A call that was refused has left what is retained, its total, the limits and the ids. -/
structure Refused (s s' : LiveStreamBudget α) : Prop where
  retained : s'.retained = s.retained
  bytes : s'.retainedSerializedBytes = s.retainedSerializedBytes
  limits : s'.limits = s.limits
  nextId : s'.nextId = s.nextId

omit [DecidableEq α] in
theorem Refused.sums {s' : LiveStreamBudget α} (h : Refused s s') (hs : s.Sums) : s'.Sums :=
  ⟨h.retained ▸ hs.nodup, h.retained ▸ h.nextId ▸ hs.old, by rw [h.retained, h.bytes, hs.total]⟩

omit [DecidableEq α] in
theorem Refused.within {s' : LiveStreamBudget α} (h : Refused s s') (hs : s.Within) : s'.Within :=
  ⟨by rw [h.retained, h.limits]; exact hs.items, by rw [h.bytes, h.limits]; exact hs.bytes⟩

variable (serializedSize) in
omit [DecidableEq α] in
theorem retain_cases (s : LiveStreamBudget α) (value : α) (payload : β) :
    ((∃ e, (s.retain serializedSize value payload).1 = .error e) ∧
      Refused s (s.retain serializedSize value payload).2) ∨
    ((s.retain serializedSize value payload).1 =
        .ok ⟨s.nextId, value, serializedSize payload⟩ ∧
      ¬s.Exceeds (s.retained.length + 1) (s.retainedSerializedBytes + serializedSize payload) ∧
      (s.retain serializedSize value payload).2 =
        { s with
          retained := s.retained ++ newItems serializedSize s.nextId [(value, payload)]
          retainedSerializedBytes := s.retainedSerializedBytes + serializedSize payload
          nextId := s.nextId + 1 }) := by
  unfold retain
  split
  · exact .inl ⟨⟨_, rfl⟩, rfl, rfl, rfl, rfl⟩
  · dsimp only
    split
    · exact .inl ⟨⟨_, rfl⟩, rfl, rfl, rfl, rfl⟩
    · rename_i hfits
      exact .inr ⟨rfl, hfits, rfl⟩

/-- What `replace` takes off for items is what their release takes off, if none of those that are
retained is given twice. Here `t` is what is left of the budget after the items before these. -/
theorem withoutPrevious_eq {previous : List (RetainedLiveItem α)} (t : LiveStreamBudget α)
    (hsame : ∀ item ∈ previous, item ∈ s.retained ↔ item ∈ t.retained)
    (hnodup : (previous.filter (· ∈ s.retained)).Nodup) (items bytes : ℤ) :
    s.withoutPrevious items bytes previous =
      (items - t.retained.length + (t.release previous).retained.length,
        bytes - t.retainedSerializedBytes + (t.release previous).retainedSerializedBytes) := by
  induction previous generalizing t items bytes with
  | nil => simp [withoutPrevious, release]
  | cons item previous ih =>
    by_cases hmem : item ∈ s.retained
    · have hmem' := (hsame item List.mem_cons_self).mp hmem
      rw [List.filter_cons_of_pos (by simpa using hmem), List.nodup_cons] at hnodup
      have hreleased : t.releaseItem item = { t with
          retained := t.retained.erase item
          retainedSerializedBytes := t.retainedSerializedBytes - item.serializedBytes } :=
        if_pos hmem'
      have hstep : s.withoutPrevious items bytes (item :: previous) =
          s.withoutPrevious (items - 1) (bytes - item.serializedBytes) previous := by
        rw [withoutPrevious, List.foldl_cons, if_pos hmem]
        rfl
      have hsame' : ∀ other ∈ previous,
          other ∈ s.retained ↔ other ∈ (t.releaseItem item).retained := by
        intro other hother
        rw [hreleased]
        constructor
        · intro hs
          have hne : other ≠ item := by
            rintro rfl
            exact hnodup.1 (List.mem_filter.mpr ⟨hother, by simpa using hs⟩)
          exact (List.mem_erase_of_ne hne).mpr
            ((hsame other (List.mem_cons_of_mem _ hother)).mp hs)
        · exact fun ht ↦
            (hsame other (List.mem_cons_of_mem _ hother)).mpr (List.mem_of_mem_erase ht)
      have hlength : ((t.releaseItem item).retained.length : ℤ) = t.retained.length - 1 := by
        have hpos := List.length_pos_of_mem hmem'
        rw [hreleased, List.length_erase_of_mem hmem']
        omega
      have hbytes : (t.releaseItem item).retainedSerializedBytes =
          t.retainedSerializedBytes - item.serializedBytes := by rw [hreleased]
      rw [hstep, ih (t.releaseItem item) hsame' hnodup.2, hlength, hbytes, release, release,
        List.foldl_cons]
      refine congrArg₂ Prod.mk ?_ ?_
      · ring
      · ring
    · have hmem' : item ∉ t.retained := fun ht ↦ hmem ((hsame item List.mem_cons_self).mpr ht)
      rw [List.filter_cons_of_neg (by simpa using hmem)] at hnodup
      have hkeep : t.releaseItem item = t := if_neg hmem'
      have hstep : s.withoutPrevious items bytes (item :: previous) =
          s.withoutPrevious items bytes previous := by
        rw [withoutPrevious, List.foldl_cons, if_neg hmem, ← withoutPrevious]
      rw [hstep, ih t (fun other hother ↦ hsame other (List.mem_cons_of_mem _ hother)) hnodup,
        release, release, List.foldl_cons, hkeep]

variable (serializedSize) in
theorem replace_cases (s : LiveStreamBudget α) (previous : List (RetainedLiveItem α))
    (values : List (α × β)) :
    ((∃ e, (s.replace serializedSize previous values).1 = .error e) ∧
      Refused s (s.replace serializedSize previous values).2) ∨
    ∃ items bytes, s.withoutPrevious (s.retained.length + values.length)
        (s.retainedSerializedBytes + total (newItems serializedSize s.nextId values)) previous =
          (items, bytes) ∧ ¬s.Exceeds items bytes ∧
      (s.replace serializedSize previous values).1 =
        .ok (newItems serializedSize s.nextId values) ∧
      (s.replace serializedSize previous values).2 = { s.release previous with
        retained := (s.release previous).retained ++ newItems serializedSize s.nextId values
        retainedSerializedBytes := bytes
        nextId := s.nextId + values.length } := by
  unfold replace
  split
  · exact .inl ⟨⟨_, rfl⟩, rfl, rfl, rfl, rfl⟩
  · dsimp only
    rw [length_newItems]
    split
    · exact .inl ⟨⟨_, rfl⟩, rfl, rfl, rfl, rfl⟩
    · rename_i hfits
      exact .inr ⟨_, _, rfl, hfits, rfl, rfl⟩

omit [DecidableEq α] in
theorem Sums.retain (h : s.Sums) (value : α) (payload : β) :
    (s.retain serializedSize value payload).2.Sums := by
  rcases retain_cases serializedSize s value payload with
    ⟨-, hrefused⟩ | ⟨-, -, heq⟩
  · exact hrefused.sums h
  · rw [heq]
    refine h.add [(value, payload)] ?_
    rw [h.total]
    simp [newItems, LiveStreamBudget.total]

omit [DecidableEq α] in
theorem Within.retain (h : s.Within) (value : α) (payload : β) :
    (s.retain serializedSize value payload).2.Within := by
  rcases retain_cases serializedSize s value payload with
    ⟨-, hrefused⟩ | ⟨-, hfits, heq⟩
  · exact hrefused.within h
  · rw [heq]
    refine within_of_not_exceeds ?_
    rw [List.length_append, length_newItems]
    exact_mod_cast hfits

/-- No retained item is given twice. -/
def GivesOnce (s : LiveStreamBudget α) (previous : List (RetainedLiveItem α)) : Prop :=
  (previous.filter (· ∈ s.retained)).Nodup

theorem Sums.replace (h : s.Sums) (hwithin : s.Within) {previous : List (RetainedLiveItem α)}
    (hprevious : s.GivesOnce previous) (values : List (α × β)) :
    (s.replace serializedSize previous values).2.Sums ∧
      (s.replace serializedSize previous values).2.Within := by
  rcases replace_cases serializedSize s previous values with
    ⟨-, hrefused⟩ | ⟨items, bytes, hnext, hfits, -, heq⟩
  · exact ⟨hrefused.sums h, hrefused.within hwithin⟩
  · have hreleased := h.release previous
    have hless := less_release s previous
    rw [withoutPrevious_eq s (fun _ _ ↦ Iff.rfl) hprevious] at hnext
    obtain ⟨hitems, hbytes⟩ := Prod.mk.inj hnext
    rw [heq, ← hless.nextId]
    refine ⟨hreleased.add values ?_, within_of_not_exceeds ?_⟩
    · rw [← hbytes, ← hreleased.total, hless.nextId]
      ring
    · have hlength : (((s.release previous).retained ++
          newItems serializedSize (s.release previous).nextId values).length : ℤ) = items := by
        rw [← hitems, List.length_append, length_newItems]
        push_cast
        ring
      rw [hlength, Exceeds, hless.limits]
      exact hfits

/-! ## Runs -/

/-- What holds of the budget at all times. -/
structure Inv (s : LiveStreamBudget α) : Prop where
  sums : s.Sums
  within : s.Within

omit [DecidableEq α] in
theorem inv_init (limits : LiveStreamLimits) : Inv ({ limits } : LiveStreamBudget α) :=
  ⟨⟨List.nodup_nil, nofun, rfl⟩, ⟨Nat.zero_le _, Int.natCast_nonneg _⟩⟩

theorem Inv.release (h : s.Inv) (items : List (RetainedLiveItem α)) : (s.release items).Inv :=
  ⟨h.sums.release items, (less_release s items).within h.within⟩

theorem Inv.acknowledge (h : s.Inv) (i : ℕ) : (s.acknowledge i).Inv := by
  have hrelease := h.release (s.inFlight.getD i [])
  exact ⟨⟨hrelease.sums.nodup, hrelease.sums.old, hrelease.sums.total⟩,
    ⟨hrelease.within.items, hrelease.within.bytes⟩⟩

/-- A call of `replace` gives no retained item twice. -/
def Orderly (s : LiveStreamBudget α) : BudgetStep α β → Prop
  | .replace previous _ => s.GivesOnce previous
  | _ => True

variable (serializedSize) in
/-- **Every orderly step keeps the accounting.** -/
theorem Inv.step (h : s.Inv) {i : BudgetStep α β} (hi : s.Orderly i) :
    (s.step serializedSize i).Inv := by
  cases i with
  | retain value payload => exact ⟨h.sums.retain value payload, h.within.retain value payload⟩
  | replace previous values =>
    obtain ⟨hsums, hwithin⟩ := h.sums.replace h.within hi values
    exact ⟨hsums, hwithin⟩
  | release items => exact h.release items
  | deliveryOpened =>
    simp only [LiveStreamBudget.step]
    split
    · exact h
    · exact ⟨⟨h.sums.nodup, h.sums.old, h.sums.total⟩, ⟨h.within.items, h.within.bytes⟩⟩
  | pullStarted i => exact h.acknowledge i
  | pullReturned i items =>
    exact ⟨⟨h.sums.nodup, h.sums.old, h.sums.total⟩, ⟨h.within.items, h.within.bytes⟩⟩
  | failureNoticed i =>
    simp only [LiveStreamBudget.step]
    split
    · exact h.release _
    · exact h
  | deliveryClosed i => exact h.acknowledge i
  | closed => exact h.release s.retained

variable (serializedSize) in
/-- **The accounting of a budget is exact.** -/
structure Exact (s : LiveStreamBudget α) : Prop where
  total : s.retainedSerializedBytes = (s.retained.map fun item ↦ (item.serializedBytes : ℤ)).sum
  bytes : s.retainedSerializedBytes ≤ s.limits.maxSerializedBytes
  items : s.retained.length ≤ s.limits.maxItems
  /-- What is refused changes nothing. -/
  refusedRetain : ∀ value payload e, (s.retain serializedSize value payload).1 = .error e →
    (s.retain serializedSize value payload).2.retained = s.retained ∧
      (s.retain serializedSize value payload).2.retainedSerializedBytes = s.retainedSerializedBytes
  refusedReplace : ∀ previous values e, (s.replace serializedSize previous values).1 = .error e →
    (s.replace serializedSize previous values).2.retained = s.retained ∧
      (s.replace serializedSize previous values).2.retainedSerializedBytes =
        s.retainedSerializedBytes
  /-- A second release changes nothing. -/
  releasedTwice : ∀ items, ∀ item ∈ items, (s.release items).release [item] = s.release items

theorem Inv.exact (h : s.Inv) : s.Exact serializedSize where
  total := h.sums.total
  bytes := h.within.bytes
  items := h.within.items
  refusedRetain value payload e he := by
    rcases retain_cases serializedSize s value payload with
      ⟨-, hrefused⟩ | ⟨hok, -⟩
    · exact ⟨hrefused.retained, hrefused.bytes⟩
    · exact absurd (he.symm.trans hok) nofun
  refusedReplace previous values e he := by
    rcases replace_cases serializedSize s previous values with
      ⟨-, hrefused⟩ | ⟨_, _, -, -, hok, -⟩
    · exact ⟨hrefused.retained, hrefused.bytes⟩
    · exact absurd (he.symm.trans hok) nofun
  releasedTwice _ _ hmem := release_twice h.sums hmem

variable (serializedSize) in
/-- The state of a budget after a run. -/
def after (limits : LiveStreamLimits) (inputs : List (BudgetStep α β)) : LiveStreamBudget α :=
  inputs.foldl (step serializedSize) { limits }

/-- **The accounting is exact after every run** in which no call of `replace` gives a retained item
twice. -/
theorem exact_of_orderly (limits : LiveStreamLimits) (inputs : List (BudgetStep α β))
    (h : EveryStep (step serializedSize) Orderly { limits } inputs) :
    (after serializedSize limits inputs).Exact serializedSize :=
  (h.foldl_invariant (fun _ _ hs hi ↦ hs.step serializedSize hi) (inv_init limits)).exact

/-- A batch is replaced, acknowledged and released again. -/
theorem exact_of_orderly_replaced :
    (after id {} [.retain "a" 2, .retain "b" 3, .replace [⟨0, "a", 2⟩] [("c", 4)],
      .release [⟨1, "b", 3⟩, ⟨1, "b", 3⟩]]).Exact id ∧
    (after id {} [.retain "a" 2, .retain "b" 3, .replace [⟨0, "a", 2⟩] [("c", 4)],
      .release [⟨1, "b", 3⟩, ⟨1, "b", 3⟩]]).retainedSerializedBytes = 4 :=
  ⟨exact_of_orderly _ _ ⟨trivial, trivial, by rw [Orderly, GivesOnce]; decide, trivial, trivial⟩,
    by decide⟩

/-- An item that is given twice is taken off the total twice. -/
theorem not_exact_runs : ¬ ∀ (limits : LiveStreamLimits) (inputs : List (BudgetStep String ℕ)),
    (after id limits inputs).Exact id :=
  fun h ↦ absurd (h {} [.retain "a" 2, .replace [⟨0, "a", 2⟩, ⟨0, "a", 2⟩] [("b", 3)]]).total
    (by decide)

end LiveStreamBudget

end Awen.Orchestration
