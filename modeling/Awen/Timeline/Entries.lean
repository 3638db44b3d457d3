import Mathlib.Data.List.Basic
import Awen.Library.OrderedMap
import Awen.Library.StableSort
import Awen.Orchestration.Contracts

/-!
# The entries of the timeline

The conversation of a thread is shown as one list: its messages, its proposed plans and its work
entries, by the time of their creation. While a turn runs the list is derived again and again, and
`deriveTimelineEntriesWithState` reuses what it derived before. It has three paths: new text of
messages that are being streamed goes to the place of the old text, items that came at the ends of
the sources are merged in, and everything else is sorted anew.

Equality of messages, plans and work entries is the identity of the objects, so each of them carries
the name `ref` of its object. How the runtime compares two times is a parameter.
-/

namespace Awen.Timeline

open Orchestration (OrchestrationMessageRole)

variable {ρ π ω : Type*}

/-! ## The sources -/

/-- A message. What the derivation does not look into is kept in `rest`. -/
structure ChatMessage (ρ : Type*) where
  ref : ℕ
  id : String
  role : OrchestrationMessageRole
  streaming : Bool
  createdAt : String
  text : String
  updatedAt : String
  rest : ρ
  deriving DecidableEq

/-- A plan that was proposed. -/
structure ProposedPlan (π : Type*) where
  ref : ℕ
  id : String
  createdAt : String
  rest : π
  deriving DecidableEq

/-- The answer to a question, as a work entry shows it. -/
structure QuestionAnswer where
  requestId : String
  deriving DecidableEq

/-- An entry of the work log. -/
structure WorkLogEntry (ω : Type*) where
  ref : ℕ
  id : String
  createdAt : String
  questionAnswer : Option QuestionAnswer
  rest : ω
  deriving DecidableEq

/-- An entry of the timeline: it has the id and the time of what it shows. -/
inductive TimelineEntry (ρ π ω : Type*)
  | message (message : ChatMessage ρ)
  | proposedPlan (proposedPlan : ProposedPlan π)
  | work (entry : WorkLogEntry ω)
  deriving DecidableEq

namespace TimelineEntry

def createdAt : TimelineEntry ρ π ω → String
  | .message shown => shown.createdAt
  | .proposedPlan shown => shown.createdAt
  | .work shown => shown.createdAt

end TimelineEntry

/-- The three sources of a timeline. -/
structure TimelineSources (ρ π ω : Type*) where
  messages : List (ChatMessage ρ)
  proposedPlans : List (ProposedPlan π)
  workEntries : List (WorkLogEntry ω)
  deriving DecidableEq

/-- The sources together with the entries that were derived from them. -/
structure TimelineEntriesProjection (ρ π ω : Type*) extends TimelineSources ρ π ω where
  entries : List (TimelineEntry ρ π ω)
  deriving DecidableEq

/-- The entries of some messages, plans and work entries, source after source. -/
def sourceRows (messages : List (ChatMessage ρ)) (proposedPlans : List (ProposedPlan π))
    (workEntries : List (WorkLogEntry ω)) : List (TimelineEntry ρ π ω) :=
  messages.map .message ++ proposedPlans.map .proposedPlan ++ workEntries.map .work

/-! ## Order -/

section

variable (localeCompare : String → String → Ordering)

def compareTimelineEntriesByCreatedAt (left right : TimelineEntry ρ π ω) : Ordering :=
  localeCompare left.createdAt right.createdAt

def timelineEntrySourceOrder : TimelineEntry ρ π ω → ℕ
  | .message _ => 0
  | .proposedPlan _ => 1
  | .work _ => 2

def shouldTakePreviousTimelineEntry (previous suffix : TimelineEntry ρ π ω) : Bool :=
  match compareTimelineEntriesByCreatedAt localeCompare previous suffix with
  | .lt => true
  | .gt => false
  | .eq => decide (timelineEntrySourceOrder previous ≤ timelineEntrySourceOrder suffix)

/-- `toSorted` with the comparison of times. -/
def sortTimelineEntries (entries : List (TimelineEntry ρ π ω)) : List (TimelineEntry ρ π ω) :=
  stableSort (fun a b ↦ (compareTimelineEntriesByCreatedAt localeCompare a b).isLE) entries

def hasExactArrayPrefix {α : Type*} [DecidableEq α] (previous next : List α) : Bool :=
  previous.isPrefixOf next

/-- Whether no entry of the suffix is later than the one behind it. -/
def suffixIsOrdered : List (TimelineEntry ρ π ω) → Bool
  | first :: second :: rest =>
    compareTimelineEntriesByCreatedAt localeCompare first second != .gt &&
      suffixIsOrdered (second :: rest)
  | _ => true

def mergeTimelineEntrySuffix (previous suffix : List (TimelineEntry ρ π ω)) :
    List (TimelineEntry ρ π ω) :=
  match suffix with
  | [] => previous
  | first :: _ =>
    if suffixIsOrdered localeCompare suffix &&
        previous.getLast?.all (shouldTakePreviousTimelineEntry localeCompare · first) then
      previous ++ suffix
    else
      previous.merge suffix (shouldTakePreviousTimelineEntry localeCompare)

end

/-! ## Derivation -/

/-- Text and update time do not change a streaming assistant message's timeline structure. -/
def isStreamingMessageTextUpdate [DecidableEq ρ] (previous next : ChatMessage ρ) : Bool :=
  if previous.role != .assistant || next.role != .assistant || !previous.streaming ||
      !next.streaming then
    false
  else
    decide (previous.id = next.id ∧ previous.role = next.role ∧
      previous.streaming = next.streaming ∧ previous.createdAt = next.createdAt ∧
      previous.rest = next.rest)

/-- The messages that new ones of the same place take the place of, unless one of them has changed
in more than its text. -/
def collectReplacements [DecidableEq ρ] :
    List (ChatMessage ρ × ChatMessage ρ) → OrderedMap (ChatMessage ρ) (ChatMessage ρ) →
      Option (OrderedMap (ChatMessage ρ) (ChatMessage ρ))
  | [], replacements => some replacements
  | (previousMessage, message) :: rest, replacements =>
    if message = previousMessage then
      collectReplacements rest replacements
    else if !isStreamingMessageTextUpdate previousMessage message then
      none
    else
      collectReplacements rest (replacements.set previousMessage message)

section

variable [DecidableEq ρ]

/-- The entry with a new message in the place of an old one. -/
def replaceMessage (replacements : OrderedMap (ChatMessage ρ) (ChatMessage ρ)) :
    TimelineEntry ρ π ω → TimelineEntry ρ π ω
  | .message message => .message ((replacements.get message).getD message)
  | entry => entry

def replaceStreamingTimelineMessages (messages : List (ChatMessage ρ))
    (previous : TimelineEntriesProjection ρ π ω) : Option (List (TimelineEntry ρ π ω)) :=
  if messages.length ≠ previous.messages.length then none
  else
    match collectReplacements (previous.messages.zip messages) .empty with
    | none => none
    | some replacements =>
      if replacements.size = 0 then some previous.entries
      else some (previous.entries.map (replaceMessage replacements))

def foldedAnswerMessageIds (workEntries : List (WorkLogEntry ω)) : List String :=
  workEntries.flatMap fun entry ↦
    match entry.questionAnswer with
    | some questionAnswer => ["async-answer:" ++ questionAnswer.requestId]
    | none => []

/-- A message of the user is left out when a work entry shows it as an answer. -/
def showMessage (workEntries : List (WorkLogEntry ω)) (message : ChatMessage ρ) : Bool :=
  message.role != .user || !(foldedAnswerMessageIds workEntries).contains message.id

/-- Whether the entry is a message that is not to be shown any more. -/
def hidesMessage (workEntries : List (WorkLogEntry ω)) : TimelineEntry ρ π ω → Bool
  | .message message => !showMessage workEntries message
  | _ => false

/-- The entries of what is shown of the sources. -/
def timelineRows (folding : List (WorkLogEntry ω)) (sources : TimelineSources ρ π ω) :
    List (TimelineEntry ρ π ω) :=
  sourceRows (sources.messages.filter (showMessage folding)) sources.proposedPlans
    sources.workEntries

variable [DecidableEq π] [DecidableEq ω] (localeCompare : String → String → Ordering)

/-- Reuse ordered entries across immutable stream updates. Other changes keep the full sort. -/
def deriveTimelineEntriesWithState (sources : TimelineSources ρ π ω)
    (previous : Option (TimelineEntriesProjection ρ π ω)) : TimelineEntriesProjection ρ π ω :=
  let streamed := previous.bind fun previous ↦
    if previous.proposedPlans.length = sources.proposedPlans.length ∧
        previous.workEntries.length = sources.workEntries.length ∧
        hasExactArrayPrefix previous.proposedPlans sources.proposedPlans ∧
        hasExactArrayPrefix previous.workEntries sources.workEntries then
      replaceStreamingTimelineMessages sources.messages previous
    else none
  match streamed with
  | some entries => { sources with entries }
  | none =>
    let appended := previous.filter fun previous ↦
      !previous.entries.any (hidesMessage sources.workEntries) &&
        hasExactArrayPrefix previous.messages sources.messages &&
        hasExactArrayPrefix previous.proposedPlans sources.proposedPlans &&
        hasExactArrayPrefix previous.workEntries sources.workEntries
    match appended with
    | some previous =>
      let suffix := sortTimelineEntries localeCompare (timelineRows sources.workEntries
        { messages := sources.messages.drop previous.messages.length
          proposedPlans := sources.proposedPlans.drop previous.proposedPlans.length
          workEntries := sources.workEntries.drop previous.workEntries.length })
      { sources with entries := mergeTimelineEntrySuffix localeCompare previous.entries suffix }
    | none =>
      { sources with
        entries := sortTimelineEntries localeCompare (timelineRows sources.workEntries sources) }

def deriveTimelineEntries (sources : TimelineSources ρ π ω) : List (TimelineEntry ρ π ω) :=
  (deriveTimelineEntriesWithState localeCompare sources none).entries

end

end Awen.Timeline

/-!
## The order of the timeline

`shouldTakePreviousTimelineEntry` orders entries by time and, at equal times, by the kind of their
source. Sorting by it is what both other ways to bring the sources in order come to: the full sort
by time alone, because the sources are listed kind after kind, and merging a sorted suffix, because
merging sorted lists is sorting them together.
-/

namespace Awen.Timeline

variable {ρ π ω : Type*}

/-! ## The order of the timeline -/

section

variable (localeCompare : String → String → Ordering)

theorem transCmp_compareTimelineEntriesByCreatedAt [Std.TransCmp localeCompare] :
    Std.TransCmp (compareTimelineEntriesByCreatedAt (ρ := ρ) (π := π) (ω := ω) localeCompare) :=
  transCmp_comap localeCompare TimelineEntry.createdAt

theorem shouldTakePreviousTimelineEntry_eq_isLE (a b : TimelineEntry ρ π ω) :
    shouldTakePreviousTimelineEntry localeCompare a b =
      (compareLex (compareTimelineEntriesByCreatedAt localeCompare)
        (fun a b ↦ compare (timelineEntrySourceOrder a) (timelineEntrySourceOrder b))
        a b).isLE := by
  rw [shouldTakePreviousTimelineEntry, compareLex]
  cases compareTimelineEntriesByCreatedAt localeCompare a b with
  | lt => rfl
  | gt => rfl
  | eq =>
    rw [Ordering.eq_then, Bool.eq_iff_iff, decide_eq_true_iff, Nat.isLE_compare]

theorem isLE_of_shouldTakePrevious {a b : TimelineEntry ρ π ω}
    (h : shouldTakePreviousTimelineEntry localeCompare a b = true) :
    (compareTimelineEntriesByCreatedAt localeCompare a b).isLE = true := by
  rw [shouldTakePreviousTimelineEntry] at h
  split at h
  next heq => rw [heq]; rfl
  next => nomatch h
  next heq => rw [heq]; rfl

variable [Std.TransCmp localeCompare]

theorem consistentLe_shouldTakePrevious :
    ConsistentLe (shouldTakePreviousTimelineEntry (ρ := ρ) (π := π) (ω := ω) localeCompare) := by
  have htime := transCmp_compareTimelineEntriesByCreatedAt (ρ := ρ) (π := π) (ω := ω) localeCompare
  have horder := transCmp_comap (α := TimelineEntry ρ π ω) (compare (α := ℕ))
    timelineEntrySourceOrder
  have h := consistentLe_isLE (compareLex (compareTimelineEntriesByCreatedAt localeCompare)
    fun a b : TimelineEntry ρ π ω ↦
      compare (timelineEntrySourceOrder a) (timelineEntrySourceOrder b))
  simpa only [← shouldTakePreviousTimelineEntry_eq_isLE] using h

theorem consistentLe_createdAt : ConsistentLe fun a b : TimelineEntry ρ π ω ↦
    (compareTimelineEntriesByCreatedAt localeCompare a b).isLE :=
  have := transCmp_compareTimelineEntriesByCreatedAt (ρ := ρ) (π := π) (ω := ω) localeCompare
  consistentLe_isLE _

theorem shouldTakePrevious_of_ties {a b : TimelineEntry ρ π ω}
    (hties : ties (fun a b ↦ (compareTimelineEntriesByCreatedAt localeCompare a b).isLE) a b)
    (horder : timelineEntrySourceOrder a ≤ timelineEntrySourceOrder b) :
    shouldTakePreviousTimelineEntry localeCompare a b = true := by
  have htrans := transCmp_compareTimelineEntriesByCreatedAt (ρ := ρ) (π := π) (ω := ω) localeCompare
  have heq : compareTimelineEntriesByCreatedAt localeCompare a b = .eq :=
    Std.OrientedCmp.isLE_antisymm (ties_eq_true.mp hties).1 (ties_eq_true.mp hties).2
  rw [shouldTakePreviousTimelineEntry, heq]
  exact decide_eq_true horder

/-- Entries of different sources are never equal in the order of the timeline. -/
theorem order_eq_of_ties {a b : TimelineEntry ρ π ω}
    (hties : ties (shouldTakePreviousTimelineEntry localeCompare) a b = true) :
    timelineEntrySourceOrder a = timelineEntrySourceOrder b := by
  have htrans := transCmp_compareTimelineEntriesByCreatedAt (ρ := ρ) (π := π) (ω := ω) localeCompare
  obtain ⟨hab, hba⟩ := ties_eq_true.mp hties
  have heq : compareTimelineEntriesByCreatedAt localeCompare a b = .eq :=
    Std.OrientedCmp.isLE_antisymm (isLE_of_shouldTakePrevious localeCompare hab)
      (isLE_of_shouldTakePrevious localeCompare hba)
  rw [shouldTakePreviousTimelineEntry, heq] at hab
  rw [shouldTakePreviousTimelineEntry, Std.OrientedCmp.eq_comm.mp heq] at hba
  exact Nat.le_antisymm (of_decide_eq_true hab) (of_decide_eq_true hba)

end

/-! ## The entries of the sources -/

section

variable {localeCompare : String → String → Ordering} [Std.TransCmp localeCompare]

theorem filter_ties_eq_nil (entry : TimelineEntry ρ π ω) {rows : List (TimelineEntry ρ π ω)}
    {order : ℕ} (horder : ∀ row ∈ rows, timelineEntrySourceOrder row = order)
    (hne : timelineEntrySourceOrder entry ≠ order) :
    rows.filter (ties (shouldTakePreviousTimelineEntry localeCompare) entry) = [] :=
  List.filter_eq_nil_iff.mpr fun row hrow hties ↦
    hne ((order_eq_of_ties localeCompare hties).trans (horder row hrow))

theorem order_message {messages : List (ChatMessage ρ)} {row : TimelineEntry ρ π ω}
    (h : row ∈ messages.map TimelineEntry.message) : timelineEntrySourceOrder row = 0 := by
  obtain ⟨message, -, rfl⟩ := List.mem_map.mp h
  rfl

theorem order_proposedPlan {plans : List (ProposedPlan π)} {row : TimelineEntry ρ π ω}
    (h : row ∈ plans.map TimelineEntry.proposedPlan) : timelineEntrySourceOrder row = 1 := by
  obtain ⟨plan, -, rfl⟩ := List.mem_map.mp h
  rfl

theorem order_work {entries : List (WorkLogEntry ω)} {row : TimelineEntry ρ π ω}
    (h : row ∈ entries.map TimelineEntry.work) : timelineEntrySourceOrder row = 2 := by
  obtain ⟨entry, -, rfl⟩ := List.mem_map.mp h
  rfl

/-- The entries that are equal to one of some source are entries of that source. -/
theorem filter_ties_rows (entry : TimelineEntry ρ π ω) (messages : List (ChatMessage ρ))
    (plans : List (ProposedPlan π)) (work : List (WorkLogEntry ω)) :
    (sourceRows messages plans work).filter
        (ties (shouldTakePreviousTimelineEntry localeCompare) entry) =
      match entry with
      | .message _ => (messages.map TimelineEntry.message).filter
          (ties (shouldTakePreviousTimelineEntry localeCompare) entry)
      | .proposedPlan _ => (plans.map TimelineEntry.proposedPlan).filter
          (ties (shouldTakePreviousTimelineEntry localeCompare) entry)
      | .work _ => (work.map TimelineEntry.work).filter
          (ties (shouldTakePreviousTimelineEntry localeCompare) entry) := by
  rw [sourceRows, List.filter_append, List.filter_append]
  cases entry with
  | message message =>
    rw [filter_ties_eq_nil (.message message) (fun _ ↦ order_proposedPlan) Nat.zero_ne_one,
      filter_ties_eq_nil (.message message) (fun _ ↦ order_work) (OfNat.zero_ne_ofNat 2),
      List.append_nil, List.append_nil]
  | proposedPlan plan =>
    rw [filter_ties_eq_nil (.proposedPlan plan) (fun _ ↦ order_message) Nat.one_ne_zero,
      filter_ties_eq_nil (.proposedPlan plan) (fun _ ↦ order_work) (OfNat.one_ne_ofNat 2),
      List.append_nil, List.nil_append]
  | work work =>
    rw [filter_ties_eq_nil (.work work) (fun _ ↦ order_message) (OfNat.ofNat_ne_zero 2),
      filter_ties_eq_nil (.work work) (fun _ ↦ order_proposedPlan) (OfNat.ofNat_ne_one 2),
      List.nil_append, List.nil_append]

/-- **Entries that came in may be sorted together with the ones before them.** -/
theorem stableSort_rows_append (messages messages' : List (ChatMessage ρ))
    (plans plans' : List (ProposedPlan π)) (work work' : List (WorkLogEntry ω)) :
    stableSort (shouldTakePreviousTimelineEntry localeCompare)
        (stableSort (shouldTakePreviousTimelineEntry localeCompare)
            (sourceRows messages plans work) ++
          stableSort (shouldTakePreviousTimelineEntry localeCompare)
            (sourceRows messages' plans' work')) =
      stableSort (shouldTakePreviousTimelineEntry localeCompare)
        (sourceRows (messages ++ messages') (plans ++ plans') (work ++ work')) := by
  have hle := consistentLe_shouldTakePrevious (ρ := ρ) (π := π) (ω := ω) localeCompare
  refine hle.eq_stableSort (hle.pairwise_stableSort _) fun entry ↦ ?_
  rw [hle.filter_ties_stableSort, List.filter_append, hle.filter_ties_stableSort,
    hle.filter_ties_stableSort, filter_ties_rows, filter_ties_rows, filter_ties_rows,
    List.map_append, List.map_append, List.map_append]
  cases entry with
  | message message => exact (List.filter_append ..).symm
  | proposedPlan plan => exact (List.filter_append ..).symm
  | work work => exact (List.filter_append ..).symm

theorem pairwise_order_rows (messages : List (ChatMessage ρ)) (plans : List (ProposedPlan π))
    (work : List (WorkLogEntry ω)) :
    (sourceRows messages plans work).Pairwise fun a b ↦
       timelineEntrySourceOrder a ≤ timelineEntrySourceOrder b := by
  refine List.pairwise_append.mpr ⟨List.pairwise_append.mpr ⟨?_, ?_, ?_⟩, ?_, ?_⟩
  · exact List.pairwise_of_forall_mem_list fun a ha b hb ↦ by
      rw [order_message ha]
      exact Nat.zero_le _
  · exact List.pairwise_of_forall_mem_list fun a ha b hb ↦ by
      rw [order_proposedPlan ha, order_proposedPlan hb]
  · intro a ha b hb
    rw [order_message ha]
    exact Nat.zero_le _
  · exact List.pairwise_of_forall_mem_list fun a ha b hb ↦ by rw [order_work ha, order_work hb]
  · intro a ha b hb
    rw [order_work hb]
    rcases List.mem_append.mp ha with ha | ha
    · rw [order_message ha]
      exact Nat.zero_le _
    · rw [order_proposedPlan ha]
      exact one_le_two

/-- **The full sort is the sort by time and source.** -/
theorem sortTimelineEntries_rows (messages : List (ChatMessage ρ)) (plans : List (ProposedPlan π))
    (work : List (WorkLogEntry ω)) :
    sortTimelineEntries localeCompare
        (sourceRows messages plans work) =
      stableSort (shouldTakePreviousTimelineEntry localeCompare)
        (sourceRows messages plans work) := by
  refine ((consistentLe_createdAt localeCompare).stableSort_refine
    (consistentLe_shouldTakePrevious localeCompare)
    (fun a b ↦ isLE_of_shouldTakePrevious localeCompare) ?_).symm
  exact (pairwise_order_rows messages plans work).imp fun horder hties ↦
    shouldTakePrevious_of_ties localeCompare hties horder

/-! ## Merging -/

/-- **Merging a suffix is sorting it together with the entries before it.** -/
theorem mergeTimelineEntrySuffix_eq {previous suffix : List (TimelineEntry ρ π ω)}
    (hprevious : previous.Pairwise (shouldTakePreviousTimelineEntry localeCompare · · = true))
    (hsuffix : suffix.Pairwise (shouldTakePreviousTimelineEntry localeCompare · · = true)) :
    mergeTimelineEntrySuffix localeCompare previous suffix =
      stableSort (shouldTakePreviousTimelineEntry localeCompare) (previous ++ suffix) := by
  have hle := consistentLe_shouldTakePrevious (ρ := ρ) (π := π) (ω := ω) localeCompare
  rw [← hle.merge_eq_stableSort hprevious hsuffix, mergeTimelineEntrySuffix.eq_def]
  split
  next => rw [List.merge_right]
  next first rest =>
    split
    next happend =>
      have hlast := (Bool.and_eq_true_iff.mp happend).2
      refine (List.merge_of_le fun a b ha hb ↦ ?_).symm
      -- the last entry before the suffix is between any two entries of the two lists
      obtain ⟨front, last, rfl⟩ :=
        (List.eq_nil_or_concat' previous).resolve_left (List.ne_nil_of_mem ha)
      rw [List.getLast?_concat, Option.all_some] at hlast
      have hal : shouldTakePreviousTimelineEntry localeCompare a last = true := by
        rcases List.mem_append.mp ha with ha | ha
        · exact (List.pairwise_append.mp hprevious).2.2 a ha last List.mem_cons_self
        · rw [List.mem_singleton.mp ha]
          exact hle.refl last
      have hfb : shouldTakePreviousTimelineEntry localeCompare first b = true := by
        rcases List.mem_cons.mp hb with rfl | hb
        · exact hle.refl b
        · exact (List.pairwise_cons.mp hsuffix).1 b hb
      exact hle.trans a last b hal (hle.trans last first b hlast hfb)
    next => rfl

end

end Awen.Timeline
