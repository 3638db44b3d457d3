import Mathlib.Data.List.Infix
import Awen.Timeline.Entries

/-!
# The incremental timeline

Whatever path a derivation takes, it derives the timeline of its own sources: the messages that are
not shown as answers, the plans and the work entries, in the stable order by time and source. The
streaming path does so because what it changes is not seen by the order, as long as no message that
is being streamed is listed twice.
-/

namespace Awen.Timeline

variable {ρ π ω : Type*}

/-! ## Streaming messages -/

section

variable [DecidableEq ρ]

theorem isStreamingMessageTextUpdate_iff {previous next : ChatMessage ρ} :
    isStreamingMessageTextUpdate previous next = true ↔
      previous.role = .assistant ∧ previous.streaming = true ∧ previous.id = next.id ∧
        previous.role = next.role ∧ previous.streaming = next.streaming ∧
        previous.createdAt = next.createdAt ∧ previous.rest = next.rest := by
  rw [isStreamingMessageTextUpdate]
  split
  next hguard =>
    refine iff_of_false Bool.false_ne_true fun h ↦ ?_
    obtain ⟨hrole, hstreaming, -, hrole', hstreaming', -, -⟩ := h
    simp [← hrole', ← hstreaming', hrole, hstreaming] at hguard
  next hguard =>
    simp only [Bool.or_eq_true, bne_iff_ne, Bool.not_eq_true', not_or, not_not,
      Bool.not_eq_false] at hguard
    rw [decide_eq_true_iff]
    exact ⟨fun h ↦ ⟨hguard.1.1.1, hguard.1.2, h⟩, fun h ↦ h.2.2⟩

/-- No message that is being streamed occurs twice. -/
def StreamsOnce (messages : List (ChatMessage ρ)) : Prop :=
  (messages.filter fun message ↦ message.role == .assistant && message.streaming).Nodup

instance (messages : List (ChatMessage ρ)) : Decidable (StreamsOnce messages) :=
  inferInstanceAs (Decidable (List.Nodup _))

omit [DecidableEq ρ] in
/-- What occurs once stands opposite to one item. -/
private theorem eq_of_mem_zip {α β : Type*} {p : α → Bool} {a : α} {b b' : β} (ha : p a = true) :
    ∀ {left : List α} {right : List β}, (left.filter p).Nodup → (a, b) ∈ left.zip right →
      (a, b') ∈ left.zip right → b = b'
  | [], _, _, h, _ => by rw [List.zip_nil_left] at h; exact absurd h List.not_mem_nil
  | _ :: _, [], _, h, _ => by rw [List.zip_nil_right] at h; exact absurd h List.not_mem_nil
  | x :: left, y :: right, hnodup, h, h' => by
    rw [List.zip_cons_cons] at h h'
    -- a second occurrence behind the first one would be kept, too
    have hfirst : ∀ c, a = x → (a, c) ∉ left.zip right := fun c hax hc ↦ by
      rw [List.filter_cons_of_pos (hax ▸ ha), List.nodup_cons] at hnodup
      exact hnodup.1 (List.mem_filter.mpr ⟨hax ▸ (List.of_mem_zip hc).1, hax ▸ ha⟩)
    rcases List.mem_cons.mp h with heq | h
    · obtain ⟨hax, hby⟩ := Prod.mk.inj heq
      rcases List.mem_cons.mp h' with heq' | h'
      · rw [hby, (Prod.mk.inj heq').2]
      · exact absurd h' (hfirst b' hax)
    · rcases List.mem_cons.mp h' with heq' | h'
      · exact absurd h (hfirst b (Prod.mk.inj heq').1)
      · refine eq_of_mem_zip ha ?_ h h'
        rw [List.filter_cons] at hnodup
        split at hnodup
        next => exact hnodup.of_cons
        next => exact hnodup

/-- What a replacement map says about the pairs that it was collected from. -/
theorem collectReplacements_eq_some :
    ∀ {pairs : List (ChatMessage ρ × ChatMessage ρ)}
      {replacements result : OrderedMap (ChatMessage ρ) (ChatMessage ρ)},
      collectReplacements pairs replacements = some result →
      (∀ key ∈ replacements.keys, key ∈ result.keys) ∧
      (∀ pair ∈ pairs, pair.2 ≠ pair.1 → pair.1 ∈ result.keys) ∧
      ∀ key value, result.get key = some value → replacements.get key = some value ∨
        (key, value) ∈ pairs ∧ isStreamingMessageTextUpdate key value = true
  | [], _, _, h => by
    obtain rfl := Option.some.inj h
    exact ⟨fun _ ↦ id, nofun, fun _ _ ↦ .inl⟩
  | (previousMessage, message) :: pairs, replacements, result, h => by
    rw [collectReplacements] at h
    split at h
    next heq =>
      obtain ⟨hkeys, hpairs, hget⟩ := collectReplacements_eq_some h
      refine ⟨hkeys, fun pair hpair hne ↦ ?_, fun key value hvalue ↦ ?_⟩
      · rcases List.mem_cons.mp hpair with rfl | hpair
        · exact absurd heq hne
        · exact hpairs pair hpair hne
      · exact (hget key value hvalue).imp id fun hmem ↦ ⟨List.mem_cons_of_mem _ hmem.1, hmem.2⟩
    next =>
      split at h
      next => nomatch h
      next hupdate =>
        rw [Bool.not_eq_true', Bool.not_eq_false] at hupdate
        obtain ⟨hkeys, hpairs, hget⟩ := collectReplacements_eq_some h
        refine ⟨fun key hkey ↦ hkeys key (OrderedMap.mem_keys_set.mpr (.inr hkey)),
          fun pair hpair hne ↦ ?_, fun key value hvalue ↦ ?_⟩
        · rcases List.mem_cons.mp hpair with rfl | hpair
          · exact hkeys _ (OrderedMap.mem_keys_set.mpr (.inl rfl))
          · exact hpairs pair hpair hne
        · rcases hget key value hvalue with hset | hmem
          · by_cases hkey : key = previousMessage
            · subst hkey
              rw [OrderedMap.get_set_self] at hset
              obtain rfl := Option.some.inj hset
              exact .inr ⟨List.mem_cons_self, hupdate⟩
            · rw [OrderedMap.get_set_of_ne hkey] at hset
              exact .inl hset
          · exact .inr ⟨List.mem_cons_of_mem _ hmem.1, hmem.2⟩

/-- The message that takes the place of a message. -/
def replacement (replacements : OrderedMap (ChatMessage ρ) (ChatMessage ρ))
    (message : ChatMessage ρ) : ChatMessage ρ :=
  (replacements.get message).getD message

variable {messages : List (ChatMessage ρ)} {previous : TimelineEntriesProjection ρ π ω}
  {entries : List (TimelineEntry ρ π ω)}

/-- The streaming path replaces messages by ones that differ from them in text and update time. -/
theorem replaceStreamingTimelineMessages_eq_some
    (h : replaceStreamingTimelineMessages messages previous = some entries)
    (honce : StreamsOnce previous.messages) :
    ∃ replacements, messages = previous.messages.map (replacement replacements) ∧
      entries = previous.entries.map (replaceMessage replacements) ∧
      ∀ message, (replacement replacements message).id = message.id ∧
        (replacement replacements message).role = message.role ∧
        (replacement replacements message).createdAt = message.createdAt := by
  rw [replaceStreamingTimelineMessages] at h
  split at h
  next => nomatch h
  next hlength =>
    rw [ne_eq, not_not] at hlength
    split at h
    next => nomatch h
    next replacements hcollect =>
      obtain ⟨-, hpairs, hget⟩ := collectReplacements_eq_some hcollect
      have hpair : ∀ key value, replacements.get key = some value →
          (key, value) ∈ previous.messages.zip messages ∧
            isStreamingMessageTextUpdate key value = true := fun key value hvalue ↦
        (hget key value hvalue).resolve_left fun hempty ↦ by
          rw [OrderedMap.get_eq_some] at hempty
          exact absurd hempty List.not_mem_nil
      refine ⟨replacements, ?_, ?_, fun message ↦ ?_⟩
      · -- a message that has not changed is not replaced, as it occurs in this place only
        refine List.ext_getElem (by rw [List.length_map, hlength]) fun index hindex hindex' ↦ ?_
        rw [List.length_map] at hindex'
        rw [List.getElem_map, replacement]
        have hmem : (previous.messages[index], messages[index]) ∈ previous.messages.zip messages :=
          List.mem_iff_getElem.mpr ⟨index, by
            rw [List.length_zip]; exact lt_min hindex' hindex, List.getElem_zip⟩
        cases hvalue : replacements.get previous.messages[index] with
        | none =>
          by_contra hne
          exact OrderedMap.get_eq_none.mp hvalue (hpairs _ hmem hne)
        | some value =>
          obtain ⟨hmem', hupdate⟩ := hpair _ value hvalue
          obtain ⟨hrole, hstreaming, -⟩ := isStreamingMessageTextUpdate_iff.mp hupdate
          exact eq_of_mem_zip (by rw [hrole, hstreaming]; rfl) honce hmem hmem'
      · split at h
        next hsize =>
          obtain rfl := Option.some.inj h
          refine (List.map_id'' (fun entry ↦ ?_) _).symm
          have hnone : ∀ message, replacements.get message = none := fun message ↦ by
            rw [OrderedMap.get, List.eq_nil_of_length_eq_zero hsize]
            rfl
          cases entry with
          | message message => rw [replaceMessage, hnone]; rfl
          | proposedPlan plan => rfl
          | work work => rfl
        next => exact (Option.some.inj h).symm
      · rw [replacement]
        cases hvalue : replacements.get message with
        | none => exact ⟨rfl, rfl, rfl⟩
        | some value =>
          obtain ⟨-, -, hid, hrole, -, hcreated, -⟩ :=
            isStreamingMessageTextUpdate_iff.mp (hpair message value hvalue).2
          exact ⟨hid.symm, hrole.symm, hcreated.symm⟩

end

/-! ## The timeline -/

/-- A work entry shows the message, which is the answer of the user to a question. -/
def AnswerShown (workEntries : List (WorkLogEntry ω)) (message : ChatMessage ρ) : Prop :=
  message.role = .user ∧ ∃ entry ∈ workEntries, ∃ answer, entry.questionAnswer = some answer ∧
    message.id = "async-answer:" ++ answer.requestId

theorem mem_foldedAnswerMessageIds {workEntries : List (WorkLogEntry ω)} {id : String} :
    id ∈ foldedAnswerMessageIds workEntries ↔ ∃ entry ∈ workEntries, ∃ answer,
      entry.questionAnswer = some answer ∧ id = "async-answer:" ++ answer.requestId := by
  rw [foldedAnswerMessageIds, List.mem_flatMap]
  refine exists_congr fun entry ↦ and_congr_right fun _ ↦ ?_
  cases entry.questionAnswer with
  | none => simp
  | some answer => simp

theorem showMessage_eq_false {workEntries : List (WorkLogEntry ω)} {message : ChatMessage ρ} :
    showMessage workEntries message = false ↔ AnswerShown workEntries message := by
  rw [showMessage, AnswerShown, ← mem_foldedAnswerMessageIds, Bool.or_eq_false_iff,
    bne_eq_false_iff_eq, Bool.not_eq_false', List.contains_iff_mem]

instance (workEntries : List (WorkLogEntry ω)) (message : ChatMessage ρ) :
    Decidable (AnswerShown workEntries message) :=
  decidable_of_iff _ showMessage_eq_false

/-- The timeline of some sources: what is shown of them in the stable order by time and, at equal
times, by source. -/
def timeline (localeCompare : String → String → Ordering) (sources : TimelineSources ρ π ω) :
    List (TimelineEntry ρ π ω) :=
  stableSort (shouldTakePreviousTimelineEntry localeCompare)
    (sourceRows (sources.messages.filter fun message ↦ ¬AnswerShown sources.workEntries message)
      sources.proposedPlans sources.workEntries)

theorem filter_showMessage (workEntries : List (WorkLogEntry ω)) (messages : List (ChatMessage ρ)) :
    messages.filter (showMessage workEntries) =
      messages.filter fun message ↦ ¬AnswerShown workEntries message := by
  refine List.filter_congr fun message _ ↦ ?_
  rw [Bool.eq_iff_iff, decide_eq_true_iff, ← showMessage_eq_false, Bool.not_eq_false]

theorem message_mem_timeline {localeCompare : String → String → Ordering}
    {sources : TimelineSources ρ π ω} {message : ChatMessage ρ} :
    .message message ∈ timeline localeCompare sources ↔
      message ∈ sources.messages ∧ ¬AnswerShown sources.workEntries message := by
  simp [timeline, sourceRows]

theorem pairwise_timeline (localeCompare : String → String → Ordering)
    [Std.TransCmp localeCompare] (sources : TimelineSources ρ π ω) :
    (timeline localeCompare sources).Pairwise
      (shouldTakePreviousTimelineEntry localeCompare · · = true) :=
  (consistentLe_shouldTakePrevious localeCompare).pairwise_stableSort _

section

variable {localeCompare : String → String → Ordering} [Std.TransCmp localeCompare]

/-- **The full sort derives the timeline.** -/
theorem sortTimelineEntries_timelineRows (sources : TimelineSources ρ π ω) :
    sortTimelineEntries localeCompare (timelineRows sources.workEntries sources) =
      timeline localeCompare sources := by
  rw [timelineRows, sortTimelineEntries_rows, filter_showMessage, timeline]

omit [Std.TransCmp localeCompare] in
/-- **Replacing messages keeps up with the timeline**, if the order does not see it. -/
theorem timeline_replacement [DecidableEq ρ] {sources : TimelineSources ρ π ω}
    {replacements : OrderedMap (ChatMessage ρ) (ChatMessage ρ)}
    (hsame : ∀ message, (replacement replacements message).id = message.id ∧
      (replacement replacements message).role = message.role ∧
      (replacement replacements message).createdAt = message.createdAt) :
    timeline localeCompare
        { sources with messages := sources.messages.map (replacement replacements) } =
      (timeline localeCompare sources).map (replaceMessage replacements) := by
  have hcreated : ∀ entry : TimelineEntry ρ π ω,
      (replaceMessage replacements entry).createdAt = entry.createdAt := by
    rintro (message | plan | work)
    · exact (hsame message).2.2
    · rfl
    · rfl
  have horder : ∀ entry : TimelineEntry ρ π ω,
      timelineEntrySourceOrder (replaceMessage replacements entry) =
        timelineEntrySourceOrder entry := by
    rintro (message | plan | work) <;> rfl
  have hrows : sourceRows
      ((sources.messages.map (replacement replacements)).filter fun message ↦
        ¬AnswerShown sources.workEntries message) sources.proposedPlans sources.workEntries =
      (sourceRows (sources.messages.filter fun message ↦
        ¬AnswerShown sources.workEntries message) sources.proposedPlans
          sources.workEntries).map (replaceMessage replacements) := by
    have hkept : ((sources.messages.map (replacement replacements)).filter fun message ↦
        ¬AnswerShown sources.workEntries message) =
        (sources.messages.filter fun message ↦
          ¬AnswerShown sources.workEntries message).map (replacement replacements) := by
      rw [List.filter_map]
      refine congrArg _ (List.filter_congr fun message _ ↦ ?_)
      rw [Function.comp_apply, decide_eq_decide, AnswerShown, (hsame message).1,
        (hsame message).2.1, AnswerShown]
    rw [hkept, sourceRows, sourceRows, List.map_append, List.map_append, List.map_map,
      List.map_map, List.map_map, List.map_map]
    rfl
  rw [timeline, timeline, hrows, stableSort_map]
  intro a b
  rw [shouldTakePreviousTimelineEntry, shouldTakePreviousTimelineEntry,
    compareTimelineEntriesByCreatedAt, compareTimelineEntriesByCreatedAt, hcreated, hcreated,
    horder, horder]

theorem hasExactArrayPrefix_iff {α : Type*} [DecidableEq α] {previous next : List α} :
    hasExactArrayPrefix previous next = true ↔ previous <+: next :=
  List.isPrefixOf_iff_prefix

/-- **Merging what came in keeps up with the timeline**, if everything that was shown is still to be
shown. -/
theorem timeline_append {previous sources : TimelineSources ρ π ω}
    (hshown : ∀ message ∈ previous.messages, ¬AnswerShown previous.workEntries message →
      ¬AnswerShown sources.workEntries message)
    (hmessages : previous.messages <+: sources.messages)
    (hplans : previous.proposedPlans <+: sources.proposedPlans)
    (hwork : previous.workEntries <+: sources.workEntries) :
    mergeTimelineEntrySuffix localeCompare (timeline localeCompare previous)
        (sortTimelineEntries localeCompare (timelineRows sources.workEntries
          { messages := sources.messages.drop previous.messages.length
            proposedPlans := sources.proposedPlans.drop previous.proposedPlans.length
            workEntries := sources.workEntries.drop previous.workEntries.length })) =
      timeline localeCompare sources := by
  have hle := consistentLe_shouldTakePrevious (ρ := ρ) (π := π) (ω := ω) localeCompare
  obtain ⟨messages, hmessages⟩ := hmessages
  obtain ⟨plans, hplans⟩ := hplans
  obtain ⟨work, hwork⟩ := hwork
  -- a message that was shown as an answer is shown as one by the same work entry
  have hkept : (previous.messages.filter fun message ↦
      ¬AnswerShown previous.workEntries message) =
      previous.messages.filter fun message ↦ ¬AnswerShown sources.workEntries message := by
    refine List.filter_congr fun message hmessage ↦ ?_
    rw [decide_eq_decide]
    refine ⟨hshown message hmessage, fun hnot hanswer ↦ hnot ⟨hanswer.1, ?_⟩⟩
    obtain ⟨entry, hentry, hid⟩ := hanswer.2
    exact ⟨entry, hwork ▸ List.mem_append_left work hentry, hid⟩
  rw [← hmessages, ← hplans, List.drop_left, List.drop_left, timelineRows,
    sortTimelineEntries_rows, filter_showMessage,
    mergeTimelineEntrySuffix_eq (pairwise_timeline localeCompare previous)
      (hle.pairwise_stableSort _), timeline, hkept, stableSort_rows_append, timeline,
    ← List.filter_append, hmessages, hplans, ← hwork, List.drop_left]

/-! ## Runs -/

variable [DecidableEq ρ] [DecidableEq π] [DecidableEq ω]

omit [Std.TransCmp localeCompare] in
@[simp] theorem toTimelineSources_deriveTimelineEntriesWithState
    (sources : TimelineSources ρ π ω) (previous : Option (TimelineEntriesProjection ρ π ω)) :
    (deriveTimelineEntriesWithState localeCompare sources previous).toTimelineSources =
      sources := by
  rw [deriveTimelineEntriesWithState]
  split
  next => rfl
  next =>
    dsimp only
    split
    next => rfl
    next => rfl

theorem deriveTimelineEntries_eq (sources : TimelineSources ρ π ω) :
    deriveTimelineEntries localeCompare sources = timeline localeCompare sources :=
  sortTimelineEntries_timelineRows sources

/-- **A step derives the timeline of its sources from the timeline of the ones before them.** -/
theorem entries_deriveTimelineEntriesWithState (sources : TimelineSources ρ π ω)
    {previous : Option (TimelineEntriesProjection ρ π ω)}
    (hprevious : ∀ projection ∈ previous,
      projection.entries = timeline localeCompare projection.toTimelineSources ∧
        StreamsOnce projection.messages) :
    (deriveTimelineEntriesWithState localeCompare sources previous).entries =
      timeline localeCompare sources := by
  rw [deriveTimelineEntriesWithState]
  split
  next entries hstreamed =>
    obtain ⟨projection, hprojection, hreplaced⟩ := Option.bind_eq_some_iff.mp hstreamed
    obtain ⟨hentries, honce⟩ := hprevious projection hprojection
    split at hreplaced
    next hunchanged =>
      obtain ⟨hplansLength, hworkLength, hplans, hwork⟩ := hunchanged
      obtain ⟨replacements, hmessages, hmapped, hsame⟩ :=
        replaceStreamingTimelineMessages_eq_some hreplaced honce
      have hplans := (hasExactArrayPrefix_iff.mp hplans).eq_of_length hplansLength
      have hwork := (hasExactArrayPrefix_iff.mp hwork).eq_of_length hworkLength
      rw [hmapped, hentries, ← timeline_replacement hsame]
      cases sources
      simp_all
    next => nomatch hreplaced
  next =>
    dsimp only
    split
    next projection hprojection =>
      obtain ⟨hprojection, hgrown⟩ := Option.filter_eq_some_iff.mp hprojection
      obtain ⟨hentries, -⟩ := hprevious projection hprojection
      simp only [Bool.and_eq_true, Bool.not_eq_true', hasExactArrayPrefix_iff] at hgrown
      obtain ⟨⟨⟨hnone, hmessages⟩, hplans⟩, hwork⟩ := hgrown
      rw [hentries]
      refine timeline_append (fun message hmessage hshown hhidden ↦ ?_) hmessages hplans hwork
      have hmem : .message message ∈ projection.entries := by
        rw [hentries]
        exact message_mem_timeline.mpr ⟨hmessage, hshown⟩
      have hhides := List.any_eq_false.mp hnone _ hmem
      rw [hidesMessage, showMessage_eq_false.mpr hhidden] at hhides
      exact hhides rfl
    next => exact sortTimelineEntries_timelineRows sources

variable (localeCompare)

/-- Feed each result of the derivation to the next call. -/
def feedTimeline (steps : List (TimelineSources ρ π ω)) :
    Option (TimelineEntriesProjection ρ π ω) :=
  steps.foldl
    (fun previous sources ↦ some (deriveTimelineEntriesWithState localeCompare sources previous))
    none

variable {localeCompare}

theorem entries_feedTimeline {steps : List (TimelineSources ρ π ω)}
    (honce : ∀ step ∈ steps, StreamsOnce step.messages) :
    ∀ projection ∈ feedTimeline localeCompare steps,
      projection.entries = timeline localeCompare projection.toTimelineSources ∧
        StreamsOnce projection.messages := by
  induction steps using List.reverseRecOn with
  | nil => exact nofun
  | append_singleton steps step ih =>
    intro projection hprojection
    rw [feedTimeline, List.foldl_concat, ← feedTimeline] at hprojection
    obtain rfl := Option.some.inj hprojection
    have hbefore := ih fun earlier hearlier ↦ honce earlier (List.mem_append_left _ hearlier)
    have hsources : (deriveTimelineEntriesWithState localeCompare step
        (feedTimeline localeCompare steps)).toTimelineSources = step :=
      toTimelineSources_deriveTimelineEntriesWithState step _
    refine ⟨?_, ?_⟩
    · rw [hsources]
      exact entries_deriveTimelineEntriesWithState step hbefore
    · rw [hsources]
      exact honce step (List.mem_append_right _ List.mem_cons_self)

/-- **The incremental timeline equals the full sort.** -/
theorem incremental_eq_full (localeCompare : String → String → Ordering)
    [Std.TransCmp localeCompare] (steps : List (TimelineSources ρ π ω))
    (honce : ∀ step ∈ steps, StreamsOnce step.messages) (sources : TimelineSources ρ π ω) :
    (deriveTimelineEntriesWithState localeCompare sources
        (feedTimeline localeCompare steps)).entries = deriveTimelineEntries localeCompare sources ∧
      deriveTimelineEntries localeCompare sources = timeline localeCompare sources := by
  rw [deriveTimelineEntries_eq]
  exact ⟨entries_deriveTimelineEntriesWithState sources (entries_feedTimeline honce), rfl⟩

end

/-- An answer that is being written. -/
def draftMessage (text : String) : ChatMessage Unit where
  ref := text.length
  id := "draft"
  role := .assistant
  streaming := true
  createdAt := "2026-01-01T00:00:00.000Z"
  text := text
  updatedAt := "2026-01-01T00:00:00.000Z"
  rest := ()

theorem incremental_eq_full_drafts :
    (deriveTimelineEntriesWithState (ρ := Unit) (π := Unit) (ω := Unit) compare
        ⟨[draftMessage "On it"], [], []⟩
        (feedTimeline compare [⟨[draftMessage "On"], [], []⟩])).entries =
      deriveTimelineEntries compare ⟨[draftMessage "On it"], [], []⟩ ∧
    deriveTimelineEntries (ρ := Unit) (π := Unit) (ω := Unit) compare
        ⟨[draftMessage "On it"], [], []⟩ =
      timeline compare ⟨[draftMessage "On it"], [], []⟩ :=
  incremental_eq_full compare [⟨[draftMessage "On"], [], []⟩] (by decide)
    ⟨[draftMessage "On it"], [], []⟩

/-- A message that is listed twice is replaced in both places. -/
theorem not_incremental_eq_full_twice :
    ¬ ∀ (steps : List (TimelineSources Unit Unit Unit)) (sources : TimelineSources Unit Unit Unit),
      (deriveTimelineEntriesWithState compare sources (feedTimeline compare steps)).entries =
        deriveTimelineEntries compare sources :=
  fun h ↦ absurd (h [⟨[draftMessage "On", draftMessage "On"], [], []⟩]
    ⟨[draftMessage "On it", draftMessage "On"], [], []⟩) (by decide)

end Awen.Timeline
